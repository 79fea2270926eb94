import LinkSieve.Text.Blank
import LinkSieve.Text.Split

/-!
# Cuts as inverses of joining

Where a text has been joined at a character that one side does not hold, cutting it there gives
the two sides back. Trimming a second time changes nothing.
-/

namespace LinkSieve.Text

/-- What a check of one member after the other establishes holds of every member. -/
theorem forall_of_all {α : Type} {cs : List α} {P : α → Prop} [DecidablePred P]
    (h : cs.all (fun c => decide (P c)) = true) : ∀ c ∈ cs, P c := by
  intro c hc
  exact of_decide_eq_true (List.all_eq_true.1 h c hc)

/-- What holds of the characters of the first code points, one after the other, holds of every
character that has one of these. -/
theorem forall_of_ofNat {P : Char → Prop} {n : Nat} (h : ∀ k < n, P (Char.ofNat k)) :
    ∀ c : Char, c.toNat < n → P c := by
  intro c hc
  have hchar := h c.toNat hc
  rwa [Char.ofNat_toNat] at hchar

/-- A number is the code point of its character, unless it is none and stands for the null
character. -/
theorem ofNat_cases (n : Nat) : (Char.ofNat n).toNat = n ∨ Char.ofNat n = '\x00' := by
  by_cases hvalid : n.isValidChar
  · left
    rw [Char.ofNat, dif_pos hvalid]
    rfl
  · right
    rw [Char.ofNat, dif_neg hvalid]
    rfl

/-- A text of which every character is left alone is left alone. -/
theorem map_eq_self {α : Type} {f : α → α} {as : List α} (h : ∀ a ∈ as, f a = a) :
    as.map f = as := by
  calc
    as.map f = as.map id := List.map_congr_left h
    _ = as := List.map_id as

/-- The first element of a list that has a property. -/
def IsFirst {α : Type} (p : α → Prop) (as : List α) (a : α) : Prop :=
  p a ∧ ∃ before after, as = before ++ a :: after ∧ ∀ b ∈ before, ¬p b

theorem find?_eq_some_iff_isFirst {α : Type} {p : α → Prop} {f : α → Bool} {as : List α} {a : α}
    (h : ∀ b, f b = true ↔ p b) : as.find? f = some a ↔ IsFirst p as a := by
  rw [List.find?_eq_some_iff_append, IsFirst, h]
  simp only [Bool.not_eq_true', Bool.eq_false_iff, ne_eq, h]

section Cuts

variable {α : Type} [DecidableEq α] {sep : α} {before after cs : List α}

theorem cutFirst?_append_cons (h : sep ∉ before) (after : List α) :
    cutFirst? sep (before ++ sep :: after) = some (before, after) := by
  induction before with
  | nil => simp [cutFirst?]
  | cons c cs ih =>
      obtain ⟨hc, hcs⟩ := not_or.1 (mt List.mem_cons.2 h)
      rw [List.cons_append, cutFirst?, if_neg (Ne.symm hc), ih hcs]
      rfl

theorem cutFirst?_eq_none (h : sep ∉ cs) : cutFirst? sep cs = none := by
  induction cs with
  | nil => rfl
  | cons c cs ih =>
      obtain ⟨hc, hcs⟩ := not_or.1 (mt List.mem_cons.2 h)
      rw [cutFirst?, if_neg (Ne.symm hc), ih hcs]
      rfl

theorem cutFirst?_eq_some (h : cutFirst? sep cs = some (before, after)) :
    cs = before ++ sep :: after := by
  induction cs generalizing before with
  | nil => cases h
  | cons c cs ih =>
      rw [cutFirst?] at h
      split at h
      · rename_i hc
        obtain ⟨rfl, rfl⟩ := Prod.mk.inj (Option.some.inj h)
        rw [hc, List.nil_append]
      · obtain ⟨⟨front, back⟩, hcut, heq⟩ := Option.map_eq_some_iff.1 h
        obtain ⟨rfl, rfl⟩ := Prod.mk.inj heq
        rw [ih hcut, List.cons_append]

theorem cutOption_append_cons (h : sep ∉ before) (after : List α) :
    cutOption sep (before ++ sep :: after) = (before, some after) := by
  rw [cutOption, cutFirst?_append_cons h]

theorem cutOption_of_not_mem (h : sep ∉ cs) : cutOption sep cs = (cs, none) := by
  rw [cutOption, cutFirst?_eq_none h]

/-- A text without the separator stays in front of the cut of what follows it. -/
theorem cutOption_append (h : sep ∉ before) (after : List α) :
    cutOption sep (before ++ after) =
      (before ++ (cutOption sep after).1, (cutOption sep after).2) := by
  induction before with
  | nil => rfl
  | cons c cs ih =>
      obtain ⟨hc, hcs⟩ := not_or.1 (mt List.mem_cons.2 h)
      have hrest := ih hcs
      rw [cutOption] at hrest ⊢
      rw [List.cons_append, cutFirst?, if_neg (Ne.symm hc)]
      cases hcut : cutFirst? sep (cs ++ after)
      all_goals
        rw [hcut] at hrest
        obtain ⟨hfirst, hsecond⟩ := Prod.mk.inj hrest
        exact Prod.ext (congrArg (c :: ·) hfirst) hsecond

/-- A part that may be missing, with the separator that goes before it. -/
def led (sep : α) (part : Option (List α)) : List α :=
  match part with
  | some as => sep :: as
  | none => []

omit [DecidableEq α] in
theorem head?_led {part : Option (List α)} {a : α} (h : (led sep part).head? = some a) :
    a = sep := by
  cases part with
  | none => cases h
  | some as => exact (Option.some.inj h).symm

theorem cutOption_led (h : sep ∉ before) (part : Option (List α)) :
    cutOption sep (before ++ led sep part) = (before, part) := by
  cases part with
  | none => rw [led, List.append_nil, cutOption_of_not_mem h]
  | some as => exact cutOption_append_cons h as

theorem not_mem_of_cutFirst? (h : cutFirst? sep cs = some (before, after)) : sep ∉ before := by
  induction cs generalizing before with
  | nil => cases h
  | cons c cs ih =>
      rw [cutFirst?] at h
      split at h
      · obtain ⟨rfl, -⟩ := Prod.mk.inj (Option.some.inj h)
        exact List.not_mem_nil
      · rename_i hc
        obtain ⟨⟨front, back⟩, hcut, heq⟩ := Option.map_eq_some_iff.1 h
        obtain ⟨rfl, rfl⟩ := Prod.mk.inj heq
        exact List.not_mem_cons_of_ne_of_not_mem (Ne.symm hc) (ih hcut)

theorem not_mem_of_cutFirst?_eq_none (h : cutFirst? sep cs = none) : sep ∉ cs := by
  intro hmem
  obtain ⟨front, back, rfl, hfront⟩ := List.eq_append_cons_of_mem hmem
  rw [cutFirst?_append_cons hfront] at h
  cases h

/-- A cut gives a part without the separator, and the part behind the separator if there is one. -/
theorem eq_of_cutOption {part : Option (List α)} (h : cutOption sep cs = (before, part)) :
    cs = before ++ led sep part ∧ sep ∉ before := by
  rw [cutOption] at h
  split at h
  · rename_i hcut
    obtain ⟨rfl, rfl⟩ := Prod.mk.inj h
    exact ⟨cutFirst?_eq_some hcut, not_mem_of_cutFirst? hcut⟩
  · rename_i hcut
    obtain ⟨rfl, rfl⟩ := Prod.mk.inj h
    exact ⟨(List.append_nil cs).symm, not_mem_of_cutFirst?_eq_none hcut⟩

theorem cutLast?_eq_none (h : sep ∉ cs) : cutLast? sep cs = none := by
  induction cs with
  | nil => rfl
  | cons c cs ih =>
      obtain ⟨hc, hcs⟩ := not_or.1 (mt List.mem_cons.2 h)
      rw [cutLast?, ih hcs]
      simp only [if_neg (Ne.symm hc)]

theorem cutLast?_append_cons (before : List α) (h : sep ∉ after) :
    cutLast? sep (before ++ sep :: after) = some (before, after) := by
  induction before with
  | nil =>
      rw [List.nil_append, cutLast?, cutLast?_eq_none h]
      simp
  | cons c cs ih => rw [List.cons_append, cutLast?, ih]

theorem cutLast?_eq_some (h : cutLast? sep cs = some (before, after)) :
    cs = before ++ sep :: after := by
  induction cs generalizing before with
  | nil => cases h
  | cons c cs ih =>
      rw [cutLast?] at h
      split at h
      · rename_i hcut
        obtain ⟨rfl, rfl⟩ := Prod.mk.inj (Option.some.inj h)
        rw [ih hcut, List.cons_append]
      · split at h
        · rename_i hc
          obtain ⟨rfl, rfl⟩ := Prod.mk.inj (Option.some.inj h)
          rw [hc, List.nil_append]
        · cases h

theorem not_mem_of_cutLast?_eq_none (h : cutLast? sep cs = none) : sep ∉ cs := by
  induction cs with
  | nil => exact List.not_mem_nil
  | cons c cs ih =>
      rw [cutLast?] at h
      split at h
      · cases h
      · rename_i hcut
        split at h
        · cases h
        · rename_i hc
          exact List.not_mem_cons_of_ne_of_not_mem (Ne.symm hc) (ih hcut)

theorem not_mem_of_cutLast? (h : cutLast? sep cs = some (before, after)) : sep ∉ after := by
  induction cs generalizing before with
  | nil => cases h
  | cons c cs ih =>
      rw [cutLast?] at h
      split at h
      · rename_i hcut
        obtain ⟨rfl, rfl⟩ := Prod.mk.inj (Option.some.inj h)
        exact ih hcut
      · rename_i hcut
        split at h
        · obtain ⟨rfl, rfl⟩ := Prod.mk.inj (Option.some.inj h)
          exact not_mem_of_cutLast?_eq_none hcut
        · cases h

theorem dropPrefix?_append (start rest : List α) :
    dropPrefix? start (start ++ rest) = some rest := by
  induction start with
  | nil => rfl
  | cons a as ih => rw [List.cons_append, dropPrefix?, if_pos rfl, ih]

theorem dropPrefix?_eq_some {start rest : List α} (h : dropPrefix? start cs = some rest) :
    cs = start ++ rest := by
  induction start generalizing cs with
  | nil => exact Option.some.inj h
  | cons a as ih =>
      cases cs with
      | nil => simp [dropPrefix?] at h
      | cons c cs =>
          rw [dropPrefix?] at h
          split at h
          · rename_i hac
            rw [hac, List.cons_append, ih h]
          · simp at h

theorem occursIn_iff {part : List α} : occursIn part cs = true ↔ part <:+: cs := by
  induction cs with
  | nil => simp [occursIn]
  | cons c cs ih =>
      rw [occursIn, Bool.or_eq_true, ih, List.isPrefixOf_iff_prefix, List.infix_cons_iff]

/-- A piece between separators holds none, and nothing that the text does not hold. -/
theorem mem_splitOn {piece : List α} (h : piece ∈ cs.splitOn sep) :
    sep ∉ piece ∧ ∀ c ∈ piece, c ∈ cs := by
  induction cs generalizing piece with
  | nil =>
      rw [List.splitOn_nil, List.mem_singleton] at h
      subst h
      exact ⟨List.not_mem_nil, fun _ hc => hc⟩
  | cons c cs ih =>
      have hrest : piece ∈ cs.splitOn sep → sep ∉ piece ∧ ∀ d ∈ piece, d ∈ c :: cs := by
        intro hp
        exact ⟨(ih hp).1, fun d hd => List.mem_cons_of_mem c ((ih hp).2 d hd)⟩
      rw [List.splitOn_cons_eq_if_modifyHead] at h
      split at h
      · rcases List.mem_cons.1 h with rfl | h
        · exact ⟨List.not_mem_nil, fun _ hc => absurd hc List.not_mem_nil⟩
        · exact hrest h
      · rename_i hne
        have hc : c ≠ sep := fun heq => hne (beq_iff_eq.2 heq)
        cases hs : cs.splitOn sep with
        | nil => exact absurd hs (List.splitOn_ne_nil sep cs)
        | cons first others =>
            rw [hs, List.modifyHead_cons] at h
            rcases List.mem_cons.1 h with rfl | h
            · obtain ⟨hsep, hmem⟩ := ih (hs ▸ List.mem_cons_self)
              constructor
              · exact List.not_mem_cons_of_ne_of_not_mem (Ne.symm hc) hsep
              · intro d hd
                rcases List.mem_cons.1 hd with rfl | hd
                · exact List.mem_cons_self
                · exact List.mem_cons_of_mem c (hmem d hd)
            · exact hrest (hs ▸ List.mem_cons_of_mem first h)

theorem splitOn_cons_self (sep : α) (cs : List α) :
    (sep :: cs).splitOn sep = [] :: cs.splitOn sep := by
  rw [List.splitOn_cons_eq_if_modifyHead, if_pos (beq_self_eq_true sep)]

theorem splitOn_cons_of_ne {c : α} (h : c ≠ sep) (cs : List α) :
    (c :: cs).splitOn sep = (cs.splitOn sep).modifyHead (c :: ·) := by
  rw [List.splitOn_cons_eq_if_modifyHead, if_neg fun heq => h (beq_iff_eq.1 heq)]

/-- What stands before the first separator belongs to the first piece. -/
theorem splitOn_append (h : sep ∉ before) (cs : List α) :
    (before ++ cs).splitOn sep = (cs.splitOn sep).modifyHead (before ++ ·) := by
  induction before with
  | nil =>
      cases hcs : cs.splitOn sep with
      | nil => exact absurd hcs (List.splitOn_ne_nil sep cs)
      | cons first others => simp [hcs]
  | cons c before ih =>
      obtain ⟨hc, hbefore⟩ := not_or.1 (mt List.mem_cons.2 h)
      rw [List.cons_append, splitOn_cons_of_ne (Ne.symm hc), ih hbefore,
        List.modifyHead_modifyHead]
      rfl

/-- A separator parts the pieces before it from the pieces after it. -/
theorem splitOn_append_cons (before : List α) (sep : α) (after : List α) :
    (before ++ sep :: after).splitOn sep = before.splitOn sep ++ after.splitOn sep :=
  List.splitOnP_append_cons before after (beq_self_eq_true sep)

/-- Characters may be replaced before or after a text is cut, if none comes or ceases to be the
separator. -/
theorem splitOn_map {f : α → α} (h : ∀ c, f c = sep ↔ c = sep) (cs : List α) :
    (cs.map f).splitOn sep = (cs.splitOn sep).map (List.map f) := by
  induction cs with
  | nil => rfl
  | cons c cs ih =>
      by_cases hc : c = sep
      · subst hc
        rw [List.map_cons, (h c).2 rfl, splitOn_cons_self, splitOn_cons_self, ih]
        rfl
      · rw [List.map_cons, splitOn_cons_of_ne (mt (h c).1 hc), splitOn_cons_of_ne hc, ih]
        cases cs.splitOn sep <;> rfl

/-- A text without the separator is one piece. -/
theorem splitOn_of_not_mem (h : sep ∉ cs) : cs.splitOn sep = [cs] := by
  have happend := splitOn_append h []
  rwa [List.append_nil, List.splitOn_nil, List.modifyHead_cons, List.append_nil] at happend

/-- Texts joined at the separator are cut as each of them is cut on its own. -/
theorem splitOn_intercalate {texts : List (List α)} (h : texts ≠ []) :
    (List.intercalate [sep] texts).splitOn sep = texts.flatMap (·.splitOn sep) := by
  induction texts with
  | nil => exact absurd rfl h
  | cons first others ih =>
      cases others with
      | nil => rw [List.intercalate_singleton, List.flatMap_singleton]
      | cons second others =>
          rw [List.intercalate_cons_cons, List.append_assoc, List.singleton_append,
            splitOn_append_cons, ih (List.cons_ne_nil second others)]
          rfl

omit [DecidableEq α] in
theorem mem_intercalate {c : α} {pieces : List (List α)}
    (h : c ∈ List.intercalate [sep] pieces) : c = sep ∨ ∃ piece ∈ pieces, c ∈ piece := by
  induction pieces with
  | nil => exact absurd h List.not_mem_nil
  | cons first others ih =>
      cases others with
      | nil =>
          rw [List.intercalate_singleton] at h
          exact .inr ⟨first, List.mem_cons_self, h⟩
      | cons second others =>
          rw [List.intercalate_cons_cons, List.mem_append, List.mem_append,
            List.mem_singleton] at h
          rcases h with (h | h) | h
          · exact .inr ⟨first, List.mem_cons_self, h⟩
          · exact .inl h
          · rcases ih h with h | ⟨piece, hp, hc⟩
            · exact .inl h
            · exact .inr ⟨piece, List.mem_cons_of_mem first hp, hc⟩

omit [DecidableEq α] in
theorem sublist_intercalate (seps : List α) {piece : List α} {pieces : List (List α)}
    (h : piece ∈ pieces) : piece.Sublist (List.intercalate seps pieces) := by
  induction pieces with
  | nil => exact nomatch h
  | cons first others ih =>
      cases others with
      | nil =>
          rw [List.mem_singleton.1 h]
          simp
      | cons second others =>
          rw [List.intercalate_cons_cons]
          rcases List.mem_cons.1 h with rfl | h
          · rw [List.append_assoc]
            exact List.sublist_append_left _ _
          · exact (ih h).trans (List.sublist_append_right _ _)

theorem sublist_of_mem_splitOn {piece : List α} (h : piece ∈ cs.splitOn sep) :
    piece.Sublist cs := by
  have hjoin := sublist_intercalate [sep] h
  rwa [List.intercalate_splitOn] at hjoin

/-- A character of a text is a separator or stands in a piece. -/
theorem exists_mem_splitOn {c : α} (h : c ∈ cs) :
    c = sep ∨ ∃ piece ∈ cs.splitOn sep, c ∈ piece := by
  apply mem_intercalate
  rwa [List.intercalate_splitOn]

end Cuts

section Stretches

variable {α : Type} {p : α → Bool} {as bs : List α}

/-- A stretch does not go on in a text at whose front its condition fails. -/
theorem takeWhile_append_left (hbs : ∀ b, bs.head? = some b → p b = false) (as : List α) :
    (as ++ bs).takeWhile p = as.takeWhile p := by
  induction as with
  | nil =>
      rw [List.nil_append, List.takeWhile_nil]
      cases bs with
      | nil => rfl
      | cons b bs => rw [List.takeWhile_cons, hbs b rfl, if_neg Bool.false_ne_true]
  | cons c as ih => rw [List.cons_append, List.takeWhile_cons, List.takeWhile_cons, ih]

theorem dropWhile_append_left (hbs : ∀ b, bs.head? = some b → p b = false) (as : List α) :
    (as ++ bs).dropWhile p = as.dropWhile p ++ bs := by
  induction as with
  | nil =>
      rw [List.nil_append, List.dropWhile_nil, List.nil_append]
      cases bs with
      | nil => rfl
      | cons b bs => rw [List.dropWhile_cons, hbs b rfl, if_neg Bool.false_ne_true]
  | cons c as ih =>
      rw [List.cons_append, List.dropWhile_cons, List.dropWhile_cons, ih]
      split <;> rfl

/-- A stretch ends at the latest where its condition fails, whatever stands behind. -/
theorem takeWhile_append_cons {a : α} (ha : p a = false) (as bs : List α) :
    (as ++ a :: bs).takeWhile p = as.takeWhile p :=
  takeWhile_append_left (fun _ hb => Option.some.inj hb ▸ ha) as

theorem dropWhile_append_cons {a : α} (ha : p a = false) (as bs : List α) :
    (as ++ a :: bs).dropWhile p = as.dropWhile p ++ a :: bs :=
  dropWhile_append_left (fun _ hb => Option.some.inj hb ▸ ha) as

theorem takeWhile_append_eq (has : ∀ a ∈ as, p a = true)
    (hbs : ∀ b, bs.head? = some b → p b = false) : (as ++ bs).takeWhile p = as := by
  rw [List.takeWhile_append_of_pos has, ← List.nil_append bs, takeWhile_append_left hbs,
    List.takeWhile_nil, List.append_nil]

/-- Of two ways to part a text, one where a stretch ends and one behind that place, the front of the
second starts with the stretch. -/
theorem takeWhile_eq_of_append_eq {cs ds : List α} (h : as ++ bs = cs ++ ds)
    (has : ∀ a ∈ as, p a = true) (hbs : ∀ b, bs.head? = some b → p b = false)
    (hds : ∀ d, ds.head? = some d → p d = false) : cs.takeWhile p = as := by
  rw [← takeWhile_append_left hds cs, ← h, takeWhile_append_eq has hbs]

theorem dropWhile_append_eq (has : ∀ a ∈ as, p a = true)
    (hbs : ∀ b, bs.head? = some b → p b = false) : (as ++ bs).dropWhile p = bs := by
  rw [List.dropWhile_append_of_pos has, ← List.nil_append bs, dropWhile_append_left hbs]
  rfl

theorem takeWhile_eq_self (h : ∀ a ∈ as, p a = true) : as.takeWhile p = as := by
  have happend := takeWhile_append_eq h fun b (hb : ([] : List α).head? = some b) => nomatch hb
  rwa [List.append_nil] at happend

theorem dropWhile_eq_nil (h : ∀ a ∈ as, p a = true) : as.dropWhile p = [] := by
  have happend := dropWhile_append_eq h fun b (hb : ([] : List α).head? = some b) => nomatch hb
  rwa [List.append_nil] at happend

end Stretches

section Trimming

variable {p : Char → Bool} {cs : List Char}

theorem not_of_head?_dropWhile {c : Char} (h : (cs.dropWhile p).head? = some c) :
    p c = false := by
  have hhead := List.head?_dropWhile_not p cs
  rwa [h] at hhead

theorem dropWhile_eq_self_of_head? (h : ∀ c, cs.head? = some c → p c = false) :
    cs.dropWhile p = cs := by
  cases cs with
  | nil => rfl
  | cons c cs => rw [List.dropWhile_cons, h c rfl]; rfl

theorem trimBy_eq_self (hhead : ∀ c, cs.head? = some c → p c = false)
    (hlast : ∀ c, cs.getLast? = some c → p c = false) : trimBy p cs = cs := by
  rw [trimBy, trimEnd, dropWhile_eq_self_of_head? hhead, dropWhile_eq_self_of_head?,
    List.reverse_reverse]
  simpa only [List.head?_reverse] using hlast

/-- Trimming the end of a text stops at a part that holds nothing to trim. -/
theorem trimEnd_append {front : List Char} (h : ∀ c ∈ front, p c = false) (cs : List Char) :
    trimEnd p (front ++ cs) = front ++ trimEnd p cs := by
  have hfront : front.reverse.dropWhile p = front.reverse :=
    dropWhile_eq_self_of_head? fun c hc => h c (List.mem_reverse.1 (List.mem_of_mem_head? hc))
  rw [trimEnd, trimEnd, List.reverse_append, List.dropWhile_append]
  split
  · rename_i hempty
    rw [hfront, List.isEmpty_iff.1 hempty, List.reverse_reverse, List.reverse_nil, List.append_nil]
  · rw [List.reverse_append, List.reverse_reverse]

/-- Trimming the end of a text stops at the latest at a character that is not trimmed. -/
theorem trimEnd_append_cons {c : Char} (hc : p c = false) (front cs : List Char) :
    trimEnd p (front ++ c :: cs) = front ++ trimEnd p (c :: cs) := by
  have hwhole : (front ++ c :: cs).reverse = cs.reverse ++ c :: front.reverse := by simp
  rw [trimEnd, trimEnd, hwhole, List.reverse_cons, dropWhile_append_cons hc,
    dropWhile_append_cons hc]
  simp

theorem trimBy_sublist (p : Char → Bool) (cs : List Char) : (trimBy p cs).Sublist cs := by
  have hend : (trimBy p cs).reverse.Sublist (cs.dropWhile p).reverse := by
    rw [trimBy, trimEnd, List.reverse_reverse]
    exact List.dropWhile_sublist p
  exact (List.reverse_sublist.1 hend).trans (List.dropWhile_sublist p)

/-- What is left of a text starts and ends with characters that are not trimmed. -/
theorem trimBy_trimBy (p : Char → Bool) (cs : List Char) :
    trimBy p (trimBy p cs) = trimBy p cs := by
  apply trimBy_eq_self
  · intro c hc
    have hpre : trimBy p cs <+: cs.dropWhile p := by
      rw [trimBy, trimEnd, ← List.reverse_suffix, List.reverse_reverse]
      exact List.dropWhile_suffix p
    obtain ⟨rest, hrest⟩ := hpre
    have hhead : (cs.dropWhile p).head? = some c := by
      rw [← hrest, List.head?_append, hc]
      rfl
    exact not_of_head?_dropWhile hhead
  · intro c hc
    rw [trimBy, trimEnd, List.getLast?_reverse] at hc
    exact not_of_head?_dropWhile hc

end Trimming

end LinkSieve.Text
