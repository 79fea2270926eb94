import LinkSieve.Link.Dedup
import Mathlib.Data.List.Induction
import Mathlib.Data.List.Nodup
import Mathlib.Data.List.Perm.Subperm
import Mathlib.Order.WithBot

/-!
# What is kept of duplicate links

Of the lines with one key the earliest one of highest rank is kept, and the keys stand in the order
in which they first occur. After any number of lines the slots hold just this for the lines so far:
a line either opens a slot or is the last of its group, which is best unless the line that is kept
is at least as good.

The rank of a line is the score of its URL; a line that is no URL ranks below every other.
-/

namespace LinkSieve.Link

/-- The score of a line as it counts among duplicates. A line that is no URL is below all others. -/
def rank (line : String) : WithBot ℕ :=
  match Url.read line with
  | .ok url => WithBot.some (securityScore url)
  | .error _ => ⊥

theorem better_eq (current existing : String) :
    better current existing = if rank existing < rank current then current else existing := by
  rw [better, score?, score?, rank, rank]
  cases Url.read current with
  | error e => simp
  | ok new =>
      cases Url.read existing with
      | error e => simp
      | ok old => simp

/-- A line is the earliest one of highest rank in its group. -/
def IsFirstBest (group : List String) (line : String) : Prop :=
  ∃ before after, group = before ++ line :: after ∧
    (∀ other ∈ before, rank other < rank line) ∧ ∀ other ∈ after, rank other ≤ rank line

section FirstBest

variable {group : List String} {line kept : String}

theorem isFirstBest_singleton (line : String) : IsFirstBest [line] line :=
  ⟨[], [], rfl, by simp, by simp⟩

theorem IsFirstBest.mem (h : IsFirstBest group line) : line ∈ group := by
  obtain ⟨before, after, rfl, -⟩ := h
  exact List.mem_append_cons_self

theorem IsFirstBest.le (h : IsFirstBest group line) : ∀ other ∈ group, rank other ≤ rank line := by
  obtain ⟨before, after, rfl, hbefore, hafter⟩ := h
  intro other hother
  rcases List.mem_append.1 hother with hother | hother
  · exact (hbefore other hother).le
  rcases List.mem_cons.1 hother with rfl | hother
  · exact le_rfl
  · exact hafter other hother

/-- One more line in a group is the best one if it outranks the one that was best. -/
theorem IsFirstBest.concat (h : IsFirstBest group kept) (line : String) :
    IsFirstBest (group ++ [line]) (better line kept) := by
  rw [better_eq]
  split
  · rename_i hlt
    refine ⟨group, [], rfl, ?_, by simp⟩
    intro other hother
    exact (h.le other hother).trans_lt hlt
  · rename_i hge
    obtain ⟨before, after, rfl, hbefore, hafter⟩ := h
    refine ⟨before, after ++ [line], by simp, hbefore, ?_⟩
    intro other hother
    rcases List.mem_append.1 hother with hother | hother
    · exact hafter other hother
    · rw [List.mem_singleton.1 hother]
      exact not_lt.1 hge

end FirstBest

/-- The lines with a given key. -/
def groupOf (key : String) (lines : List String) : List String :=
  lines.filter (dedupKey · = key)

section Groups

variable {key line : String} {lines : List String}

theorem groupOf_concat_self (line : String) (lines : List String) :
    groupOf (dedupKey line) (lines ++ [line]) = groupOf (dedupKey line) lines ++ [line] := by
  simp [groupOf]

theorem groupOf_concat_of_ne (h : key ≠ dedupKey line) :
    groupOf key (lines ++ [line]) = groupOf key lines := by
  simp [groupOf, Ne.symm h]

theorem groupOf_eq_nil (h : key ∉ lines.map dedupKey) : groupOf key lines = [] := by
  rw [groupOf, List.filter_eq_nil_iff]
  intro line hline hkey
  exact h (List.mem_map.2 ⟨line, hline, of_decide_eq_true hkey⟩)

theorem dedupKey_of_mem_groupOf (h : line ∈ groupOf key lines) : dedupKey line = key :=
  of_decide_eq_true (List.mem_filter.1 h).2

end Groups

/-- A list without repetitions grows by an element that it does not hold. -/
theorem eraseDups_concat (keys : List String) (key : String) :
    (keys ++ [key]).eraseDups =
      if key ∈ keys then keys.eraseDups else keys.eraseDups ++ [key] := by
  rw [List.eraseDups_append]
  split
  · rename_i h
    simp [List.removeAll, h]
  · rename_i h
    simp [List.removeAll, h, List.eraseDups_cons]

theorem nodup_eraseDups (keys : List String) : keys.eraseDups.Nodup := by
  induction keys using List.reverseRecOn with
  | nil => exact List.nodup_nil
  | append_singleton keys key ih =>
      rw [eraseDups_concat]
      split
      · exact ih
      · rename_i h
        rw [List.nodup_append]
        refine ⟨ih, List.nodup_singleton key, ?_⟩
        rintro k hk l hl rfl
        exact h (List.mem_singleton.1 hl ▸ List.mem_eraseDups.1 hk)

/-- What the slots hold after some lines: the keys in the order in which they first occur, each
with the first best of its lines. -/
structure IsTally (lines : List String) (slots : List (String × String)) : Prop where
  keys : slots.map (·.1) = (lines.map dedupKey).eraseDups
  best : ∀ slot ∈ slots, IsFirstBest (groupOf slot.1 lines) slot.2

section Slots

variable {key line : String} {slots : List (String × String)} {lines : List String}

theorem place_of_not_mem (h : key ∉ slots.map (·.1)) :
    place key line slots = slots ++ [(key, line)] := by
  induction slots with
  | nil => rfl
  | cons slot slots ih =>
      obtain ⟨hne, hrest⟩ := not_or.1 (mt List.mem_cons.2 h)
      rw [place, if_neg (Ne.symm hne), ih hrest, List.cons_append]

/-- A line whose key has a slot challenges the line in that slot and no other. -/
theorem place_of_mem (hnodup : (slots.map (·.1)).Nodup) (h : key ∈ slots.map (·.1)) :
    place key line slots =
      slots.map fun slot => if slot.1 = key then (slot.1, better line slot.2) else slot := by
  induction slots with
  | nil => exact absurd h List.not_mem_nil
  | cons slot slots ih =>
      obtain ⟨hnot, hrest⟩ := List.nodup_cons.1 hnodup
      rw [place, List.map_cons]
      by_cases hkey : slot.1 = key
      · have hsame : slots.map (fun slot =>
            if slot.1 = key then (slot.1, better line slot.2) else slot) = slots.map id := by
          apply List.map_congr_left
          intro other hother
          have hne : other.1 ≠ key := by
            intro heq
            exact hnot (List.mem_map.2 ⟨other, hother, heq.trans hkey.symm⟩)
          rw [if_neg hne, id]
        rw [if_pos hkey, if_pos hkey, hsame, List.map_id]
      · have hmem : key ∈ slots.map (·.1) := (List.mem_cons.1 h).resolve_left (Ne.symm hkey)
        rw [if_neg hkey, if_neg hkey, ih hrest hmem]

theorem isTally_nil : IsTally [] [] := ⟨rfl, fun _ h => nomatch h⟩

/-- One more line keeps the slots what they are for the lines so far. -/
theorem IsTally.place (h : IsTally lines slots) (line : String) :
    IsTally (lines ++ [line]) (place (dedupKey line) line slots) := by
  have hmem : dedupKey line ∈ slots.map (·.1) ↔ dedupKey line ∈ lines.map dedupKey := by
    rw [h.keys, List.mem_eraseDups]
  have hkeys : ((lines ++ [line]).map dedupKey).eraseDups =
      if dedupKey line ∈ slots.map (·.1) then slots.map (·.1)
      else slots.map (·.1) ++ [dedupKey line] := by
    rw [List.map_append, List.map_singleton, eraseDups_concat, ← h.keys]
    simp only [hmem]
  by_cases hold : dedupKey line ∈ slots.map (·.1)
  · have hnodup : (slots.map (·.1)).Nodup := h.keys ▸ nodup_eraseDups _
    rw [place_of_mem hnodup hold]
    constructor
    · rw [hkeys, if_pos hold, List.map_map]
      apply List.map_congr_left
      intro slot _
      simp only [Function.comp_apply]
      split
      · rfl
      · rfl
    · intro slot hslot
      obtain ⟨kept, hkept, rfl⟩ := List.mem_map.1 hslot
      have hbest := h.best kept hkept
      split
      · rename_i hkey
        rw [hkey] at hbest ⊢
        rw [groupOf_concat_self]
        exact hbest.concat line
      · rename_i hne
        rw [groupOf_concat_of_ne hne]
        exact hbest
  · rw [place_of_not_mem hold]
    constructor
    · rw [hkeys, if_neg hold, List.map_append, List.map_singleton]
    · intro slot hslot
      rcases List.mem_append.1 hslot with hslot | hslot
      · have hne : slot.1 ≠ dedupKey line := by
          intro heq
          exact hold (heq ▸ List.mem_map_of_mem hslot)
        rw [groupOf_concat_of_ne hne]
        exact h.best slot hslot
      · obtain rfl := List.mem_singleton.1 hslot
        rw [groupOf_concat_self, groupOf_eq_nil (mt hmem.2 hold)]
        exact isFirstBest_singleton line

/-- The slots after all lines. -/
def slotsOf (lines : List String) : List (String × String) :=
  lines.foldl (fun slots line => place (dedupKey line) line slots) []

theorem slotsOf_concat (lines : List String) (line : String) :
    slotsOf (lines ++ [line]) = place (dedupKey line) line (slotsOf lines) :=
  List.foldl_concat ..

theorem isTally_slotsOf (lines : List String) : IsTally lines (slotsOf lines) := by
  induction lines using List.reverseRecOn with
  | nil => exact isTally_nil
  | append_singleton lines line ih =>
      rw [slotsOf_concat]
      exact ih.place line

/-- Lines without duplicates fill one slot each. -/
theorem slotsOf_of_nodup (h : (lines.map dedupKey).Nodup) :
    slotsOf lines = lines.map fun line => (dedupKey line, line) := by
  induction lines using List.reverseRecOn with
  | nil => rfl
  | append_singleton lines line ih =>
      rw [List.map_append, List.nodup_append] at h
      obtain ⟨hlines, -, hdisjoint⟩ := h
      have hnew : dedupKey line ∉ (slotsOf lines).map (·.1) := by
        rw [(isTally_slotsOf lines).keys, List.mem_eraseDups]
        intro hmem
        exact hdisjoint _ hmem _ (List.mem_singleton_self _) rfl
      rw [slotsOf_concat, place_of_not_mem hnew, ih hlines, List.map_append, List.map_singleton]

end Slots

theorem dedup_eq (lines : List String) : dedup lines = (slotsOf lines).map (·.2) := rfl

/-- The keys of the lines that are kept are those of the slots. -/
theorem map_dedupKey_dedup (lines : List String) :
    (dedup lines).map dedupKey = (lines.map dedupKey).eraseDups := by
  have htally := isTally_slotsOf lines
  rw [dedup_eq, List.map_map, ← htally.keys]
  apply List.map_congr_left
  intro slot hslot
  exact dedupKey_of_mem_groupOf (htally.best slot hslot).mem

theorem isFirstBest_of_mem_dedup {lines : List String} {line : String} (h : line ∈ dedup lines) :
    IsFirstBest (groupOf (dedupKey line) lines) line := by
  have htally := isTally_slotsOf lines
  obtain ⟨slot, hslot, rfl⟩ := List.mem_map.1 h
  have hbest := htally.best slot hslot
  rw [dedupKey_of_mem_groupOf hbest.mem]
  exact hbest

theorem mem_of_mem_dedup {lines : List String} {line : String} (h : line ∈ dedup lines) :
    line ∈ lines :=
  (List.mem_filter.1 (isFirstBest_of_mem_dedup h).mem).1

theorem dedup_eq_nil {lines : List String} : dedup lines = [] ↔ lines = [] := by
  constructor
  · intro h
    have hkeys := map_dedupKey_dedup lines
    rw [h, List.map_nil] at hkeys
    refine List.eq_nil_iff_forall_not_mem.2 fun line hline => ?_
    have hkey : dedupKey line ∈ (lines.map dedupKey).eraseDups :=
      List.mem_eraseDups.2 (List.mem_map_of_mem hline)
    rw [← hkeys] at hkey
    exact nomatch hkey
  · rintro rfl
    rfl

theorem nodup_map_dedupKey_dedup (lines : List String) : ((dedup lines).map dedupKey).Nodup := by
  rw [map_dedupKey_dedup]
  exact nodup_eraseDups _

theorem dedup_eq_self {lines : List String} (h : (lines.map dedupKey).Nodup) :
    dedup lines = lines := by
  rw [dedup_eq, slotsOf_of_nodup h, List.map_map]
  exact List.map_id lines

/-- One line is kept for each key, in the order in which the keys first occur, and it is the
earliest one of highest rank among the lines with its key. So what is kept stood among the lines,
no two of the lines that are kept share a key, and there is nothing left to remove. -/
theorem dedup_keeps_first_best (lines : List String) :
    (dedup lines).map dedupKey = (lines.map dedupKey).eraseDups ∧
      (∀ line ∈ dedup lines, IsFirstBest (groupOf (dedupKey line) lines) line) ∧
      (dedup lines).Subperm lines ∧ ((dedup lines).map dedupKey).Nodup ∧
      dedup (dedup lines) = dedup lines := by
  have hnodup := nodup_map_dedupKey_dedup lines
  refine ⟨map_dedupKey_dedup lines, fun _ h => isFirstBest_of_mem_dedup h, ?_, hnodup,
    dedup_eq_self hnodup⟩
  apply List.subperm_of_subset (List.Nodup.of_map dedupKey hnodup)
  intro line hline
  exact (List.mem_filter.1 (isFirstBest_of_mem_dedup hline).mem).1

end LinkSieve.Link
