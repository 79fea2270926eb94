import LinkSieve.Proofs.Text.Split
import LinkSieve.Text.Lowercase

/-!
# Lower case of a text and of its parts

The exceptions to letter by letter lower case lie outside ASCII, so the lower-case form of an ASCII
text is that of its letters. Lower case makes no character other than a letter.

Within a longer text a part keeps its lower-case form, unless a sigma ends a word in one of them
only: that is the one form that depends on the neighbours of a letter.
-/

namespace LinkSieve.Text

theorem toNat_of_upper {c : Char} (h : ('A' ≤ c && c ≤ 'Z') = true) :
    65 ≤ c.toNat ∧ c.toNat ≤ 90 := by
  have hval : c.toNat = c.val.toNat := rfl
  simp only [Bool.and_eq_true, decide_eq_true_iff, Char.le_def, UInt32.le_iff_toNat_le,
    Char.reduceVal, UInt32.reduceToNat] at h
  omega

/-- Only ASCII letters have another lower-case form, which is one of them. -/
theorem ascii_of_lowerAscii_ne {c : Char} (h : lowerAscii c ≠ c) :
    c.toNat < 0x80 ∧ (lowerAscii c).toNat < 0x80 := by
  have hlower : ∀ n < 91, (Char.ofNat (n + 32)).toNat < 0x80 := by
    decide
  rw [lowerAscii] at h ⊢
  split at h
  · rename_i hletter
    have hrange := toNat_of_upper hletter
    rw [if_pos hletter]
    exact ⟨by omega, hlower c.toNat (by omega)⟩
  · exact absurd rfl h

/-- Letters and digits by their numbers. -/
theorem isAlphanum_iff {c : Char} : c.isAlphanum = true ↔
    0x30 ≤ c.toNat ∧ c.toNat ≤ 0x39 ∨ 0x41 ≤ c.toNat ∧ c.toNat ≤ 0x5A ∨
      0x61 ≤ c.toNat ∧ c.toNat ≤ 0x7A := by
  have hval : c.toNat = c.val.toNat := rfl
  delta Char.isAlphanum Char.isAlpha Char.isUpper Char.isLower Char.isDigit
  simp only [Bool.or_eq_true, Bool.and_eq_true, decide_eq_true_iff, ge_iff_le,
    UInt32.le_iff_toNat_le, Char.reduceVal, UInt32.reduceToNat]
  omega

/-- A character that is no lower-case letter is the lower-case form of itself only. -/
theorem eq_of_lowerAscii_eq {c d : Char} (hd : d.toNat < 0x61) (h : lowerAscii c = d) : c = d := by
  rw [lowerAscii] at h
  split at h
  · rename_i hletter
    have hrange := toNat_of_upper hletter
    have hlower : ∀ n < 91, 65 ≤ n → 97 ≤ (Char.ofNat (n + 32)).toNat := by
      decide
    have hge := hlower c.toNat (by omega) (by omega)
    rw [h] at hge
    omega
  · exact h

/-- What is the same for the letters of ASCII in either case is the same for every character. -/
theorem apply_lowerAscii {α : Type} {f : Char → α}
    (h : ∀ n < 0x80, f (lowerAscii (Char.ofNat n)) = f (Char.ofNat n)) (c : Char) :
    f (lowerAscii c) = f c := by
  by_cases heq : lowerAscii c = c
  · rw [heq]
  · have hall : ∀ c : Char, c.toNat < 0x80 → f (lowerAscii c) = f c := forall_of_ofNat h
    exact hall c (ascii_of_lowerAscii_ne heq).1

theorem lowerAscii_lowerAscii (c : Char) : lowerAscii (lowerAscii c) = lowerAscii c :=
  apply_lowerAscii (by decide) c

/-- What holds of the characters of a text, whichever case its letters are in, holds of those of the
text in another case. -/
theorem forall_of_map_lowerAscii_eq {P : Char → Bool}
    (hP : ∀ n < 0x80, P (lowerAscii (Char.ofNat n)) = P (Char.ofNat n)) {cs ds : List Char}
    (h : cs.map lowerAscii = ds.map lowerAscii) (hds : ∀ d ∈ ds, P d = true) :
    ∀ c ∈ cs, P c = true := by
  intro c hc
  have hmem := List.mem_map_of_mem (f := lowerAscii) hc
  rw [h] at hmem
  obtain ⟨d, hd, heq⟩ := List.mem_map.1 hmem
  rw [← apply_lowerAscii hP c, ← heq, apply_lowerAscii hP d]
  exact hds d hd

section Marks

variable {d : Char} (hd : d.toNat < 0x61) (hself : lowerAscii d = d)

include hd hself

/-- A character that is no letter is found in a text where it stands in the text in lower case. -/
theorem lowerAscii_eq_iff {c : Char} : lowerAscii c = d ↔ c = d := by
  constructor
  · exact eq_of_lowerAscii_eq hd
  · rintro rfl
    exact hself

theorem mem_map_lowerAscii {cs : List Char} : d ∈ cs.map lowerAscii ↔ d ∈ cs := by
  simp only [List.mem_map, lowerAscii_eq_iff hd hself, exists_eq_right]

theorem map_lowerAscii_eq_some {o : Option Char} : o.map lowerAscii = some d ↔ o = some d := by
  simp only [Option.map_eq_some_iff, lowerAscii_eq_iff hd hself, exists_eq_right]

theorem splitOn_map_lowerAscii (cs : List Char) :
    (cs.map lowerAscii).splitOn d = (cs.splitOn d).map (List.map lowerAscii) :=
  splitOn_map (fun _ => lowerAscii_eq_iff hd hself) cs

end Marks

theorem lowerChar_of_ascii {c : Char} (h : c.toNat < 0x80) : lowerChar c = [lowerAscii c] := by
  rw [lowerChar, if_pos h]

theorem lowerAfter_of_ascii {cs : List Char} (h : ∀ c ∈ cs, c.toNat < 0x80) (before : List Char) :
    lowerAfter before cs = cs.map lowerAscii := by
  induction cs generalizing before with
  | nil => rfl
  | cons c cs ih =>
      have hc := h c List.mem_cons_self
      have hsigma : c ≠ 'Σ' := by
        rintro rfl
        exact absurd hc (by decide)
      rw [lowerAfter, if_neg hsigma, lowerChar_of_ascii hc,
        ih (fun d hd => h d (List.mem_cons_of_mem c hd)) (c :: before)]
      rfl

/-- The lower-case form of an ASCII text, letter by letter. -/
theorem lower_of_ascii {cs : List Char} (h : ∀ c ∈ cs, c.toNat < 0x80) :
    lower cs = cs.map lowerAscii :=
  lowerAfter_of_ascii h []

/-- An ASCII text without capital letters is in lower case. -/
theorem lower_eq_self {cs : List Char} (h : ∀ c ∈ cs, c.toNat < 0x80 ∧ lowerAscii c = c) :
    lower cs = cs := by
  rw [lower_of_ascii fun c hc => (h c hc).1]
  exact map_eq_self fun c hc => (h c hc).2

theorem lowerChar_ne_nil (c : Char) : lowerChar c ≠ [] := by
  rw [lowerChar]
  split
  · exact List.cons_ne_nil _ _
  · split
    · exact List.cons_ne_nil _ _
    · split <;> exact List.cons_ne_nil _ _

theorem lower_ne_nil {cs : List Char} (h : cs ≠ []) : lower cs ≠ [] := by
  cases cs with
  | nil => exact absurd rfl h
  | cons c rest =>
      rw [lower, lowerAfter]
      refine List.append_ne_nil_of_left_ne_nil ?_ _
      split
      · exact List.cons_ne_nil _ _
      · exact lowerChar_ne_nil c

/-- Lower case makes no plus sign. -/
theorem eq_plus_of_mem_lowerChar {c : Char} (h : '+' ∈ lowerChar c) : c = '+' := by
  have hruns : ∀ run ∈ CaseTable.runs, 0x2B < run.first + run.shift := by
    decide +kernel
  rw [lowerChar] at h
  split at h
  · exact eq_of_lowerAscii_eq (by decide) (List.mem_singleton.1 h).symm
  · split at h
    · exact absurd h (by decide)
    · split at h
      · rename_i run hrun
        have hhigh := hruns run (List.mem_of_find?_eq_some hrun)
        have hholds := List.find?_some hrun
        simp only [CaseTable.Run.holds, Bool.and_eq_true, decide_eq_true_iff] at hholds
        have hplus := List.mem_singleton.1 h
        rcases ofNat_cases (c.toNat + run.shift).toNat with hnat | hnull
        · rw [← hplus] at hnat
          change 0x2B = (c.toNat + run.shift).toNat at hnat
          omega
        · rw [hnull] at hplus
          exact absurd hplus (by decide)
      · exact (List.mem_singleton.1 h).symm

theorem plus_not_mem_lowerAfter {cs : List Char} (h : '+' ∉ cs) (before : List Char) :
    '+' ∉ lowerAfter before cs := by
  induction cs generalizing before with
  | nil => exact List.not_mem_nil
  | cons c rest ih =>
      obtain ⟨hc, hrest⟩ := not_or.1 (mt List.mem_cons.2 h)
      rw [lowerAfter, List.mem_append, not_or]
      refine ⟨fun hmem => ?_, ih hrest _⟩
      split at hmem
      · split at hmem <;> exact absurd hmem (by decide)
      · exact hc (eq_plus_of_mem_lowerChar hmem).symm

/-- The search for a cased neighbour sees two properties of a character only. -/
theorem startsCased_map {f : Char → Char}
    (hignorable : ∀ c, isCaseIgnorable (f c) = isCaseIgnorable c)
    (hcased : ∀ c, isCased (f c) = isCased c) (cs : List Char) :
    startsCased (cs.map f) = startsCased cs := by
  have hpassed : isCaseIgnorable ∘ f = isCaseIgnorable := funext hignorable
  rw [startsCased, startsCased, List.dropWhile_map, hpassed]
  cases cs.dropWhile isCaseIgnorable with
  | nil => rfl
  | cons c rest => exact hcased c

/-- Whether a sigma between two texts ends a word. The text before it is given in reverse. -/
def endsWord (before rest : List Char) : Bool :=
  startsCased before && !startsCased rest

theorem lowerAfter_sigma (before rest : List Char) :
    lowerAfter before ('Σ' :: rest) =
      (if endsWord before rest then 'ς' else 'σ') :: lowerAfter ('Σ' :: before) rest := by
  rw [lowerAfter, if_pos rfl]
  rfl

theorem lowerAfter_cons_of_ne {c : Char} (h : c ≠ 'Σ') (before rest : List Char) :
    lowerAfter before (c :: rest) = lowerChar c ++ lowerAfter (c :: before) rest := by
  rw [lowerAfter, if_neg h]

/-- A sigma ends a word of a part exactly if it ends one of the text around the part. The text
before the part is given in reverse. -/
def KeepsSigmas (before part after : List Char) : Prop :=
  ∀ done rest, part = done ++ 'Σ' :: rest →
    endsWord (done.reverse ++ before) (rest ++ after) = endsWord done.reverse rest

theorem keepsSigmas_of_not_mem {part : List Char} (h : 'Σ' ∉ part) (before after : List Char) :
    KeepsSigmas before part after := by
  rintro done rest rfl
  exact absurd (List.mem_append_right done List.mem_cons_self) h

/-- The induction is on what is left of the part, `done` being behind it. -/
theorem lowerAfter_append_of_keepsSigmas {before done rest after : List Char}
    (h : KeepsSigmas before (done ++ rest) after) :
    lowerAfter (done.reverse ++ before) (rest ++ after) =
      lowerAfter done.reverse rest ++ lowerAfter ((done ++ rest).reverse ++ before) after := by
  induction rest generalizing done with
  | nil => rw [List.append_nil, List.nil_append, lowerAfter, List.nil_append]
  | cons c rest ih =>
      have hrest := @ih (done ++ [c]) (by rwa [← List.append_cons])
      rw [← List.append_cons, List.reverse_concat, List.cons_append] at hrest
      rw [List.cons_append]
      by_cases hsigma : c = 'Σ'
      · subst hsigma
        rw [lowerAfter_sigma, lowerAfter_sigma, h done rest rfl, hrest, List.cons_append]
      · rw [lowerAfter_cons_of_ne hsigma, lowerAfter_cons_of_ne hsigma, hrest, List.append_assoc]

theorem lowerAfter_suffix (before front back : List Char) :
    lowerAfter (front.reverse ++ before) back <:+ lowerAfter before (front ++ back) := by
  induction front generalizing before with
  | nil => exact List.suffix_rfl
  | cons c front ih =>
      have hrest := ih (c :: before)
      rw [List.reverse_cons, List.append_assoc, List.singleton_append, List.cons_append, lowerAfter]
      exact hrest.trans (List.suffix_append _ _)

/-- The lower-case form of a part stands in that of the text, if its sigmas keep their form. -/
theorem isInfix_lower {before part after : List Char} (h : KeepsSigmas before.reverse part after) :
    lower part <:+: lower (before ++ part ++ after) := by
  have hpart : lowerAfter before.reverse (part ++ after) =
      lower part ++ lowerAfter (part.reverse ++ before.reverse) after :=
    @lowerAfter_append_of_keepsSigmas before.reverse [] part after h
  have hsuffix := lowerAfter_suffix [] before (part ++ after)
  rw [List.append_nil, hpart, ← List.append_assoc] at hsuffix
  exact (List.prefix_append _ _).isInfix.trans hsuffix.isInfix

end LinkSieve.Text
