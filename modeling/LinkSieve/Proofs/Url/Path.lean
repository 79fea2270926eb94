import LinkSieve.Proofs.Text.Percent
import LinkSieve.Proofs.Text.Split
import LinkSieve.Url.Reading

/-!
# Normal paths

A path that has been read holds no dot segment and nothing that a path escapes, so reading it
again leaves it as it is.
-/

namespace LinkSieve.Url.Path

/-- A segment that a normal path may hold: no dot segment, no slash, nothing left to escape. -/
structure IsPlain (segment : List Char) : Prop where
  not_here : isHere segment = false
  not_parent : isParent segment = false
  no_slash : '/' ∉ segment
  escaped : ∀ c ∈ segment, Escaped.inPath c = false

theorem isPlain_nil : IsPlain [] where
  not_here := by decide
  not_parent := by decide
  no_slash := List.not_mem_nil
  escaped := fun _ h => nomatch h

theorem mem_of_mem_parent {s : List Char} {done : List (List Char)} (h : s ∈ parent done) :
    s ∈ done := by
  cases done with
  | nil => exact h
  | cons last before =>
      rw [parent] at h
      split at h
      · exact h
      · exact List.mem_cons_of_mem last h

/-- One more segment leaves only plain ones, whatever its kind. -/
theorem isPlain_of_mem_resolve {segments done : List (List Char)}
    (hdone : ∀ s ∈ done, IsPlain s)
    (hsegments : ∀ s ∈ segments, '/' ∉ s ∧ ∀ c ∈ s, Escaped.inPath c = false) :
    ∀ s ∈ resolve done segments, IsPlain s := by
  have hparent : ∀ done : List (List Char), (∀ s ∈ done, IsPlain s) →
      ∀ s ∈ parent done, IsPlain s := fun done h s hs => h s (mem_of_mem_parent hs)
  have hcons : ∀ (s : List Char) (done : List (List Char)), IsPlain s →
      (∀ t ∈ done, IsPlain t) → ∀ t ∈ s :: done, IsPlain t := by
    intro s done hs hdone t ht
    rcases List.mem_cons.1 ht with rfl | ht
    · exact hs
    · exact hdone t ht
  induction segments generalizing done with
  | nil =>
      intro s hs
      exact hdone s (List.mem_reverse.1 hs)
  | cons segment rest ih =>
      have hslash := (hsegments segment List.mem_cons_self).1
      have hchars := (hsegments segment List.mem_cons_self).2
      have hrest := fun s hs => hsegments s (List.mem_cons_of_mem segment hs)
      have hplain (hp : ¬isParent segment = true) (hh : ¬isHere segment = true) :
          IsPlain segment :=
        ⟨Bool.eq_false_iff.2 hh, Bool.eq_false_iff.2 hp, hslash, hchars⟩
      cases rest with
      | nil =>
          intro s hs
          rw [resolve] at hs
          split at hs
          · exact hcons _ _ isPlain_nil (hparent done hdone) s (List.mem_reverse.1 hs)
          split at hs
          · exact hcons _ _ isPlain_nil hdone s (List.mem_reverse.1 hs)
          · rename_i hp hh
            exact hcons _ _ (hplain hp hh) hdone s (List.mem_reverse.1 hs)
      | cons next rest =>
          rw [resolve]
          · split
            · exact ih (hparent done hdone) hrest
            split
            · exact ih hdone hrest
            · rename_i hp hh
              exact ih (hcons _ _ (hplain hp hh) hdone) hrest
          · exact List.cons_ne_nil _ _

theorem resolve_ne_nil (done : List (List Char)) {segments : List (List Char)}
    (h : segments ≠ []) : resolve done segments ≠ [] := by
  induction segments generalizing done with
  | nil => exact absurd rfl h
  | cons segment rest ih =>
      cases rest with
      | nil =>
          rw [resolve]
          split
          · simp
          split
          · simp
          · simp
      | cons next rest =>
          rw [resolve]
          · split
            · exact ih _ (List.cons_ne_nil _ _)
            split
            · exact ih _ (List.cons_ne_nil _ _)
            · exact ih _ (List.cons_ne_nil _ _)
          · exact List.cons_ne_nil _ _

/-- Plain segments are added as they are. -/
theorem resolve_eq_self {segments : List (List Char)} (done : List (List Char))
    (h : ∀ s ∈ segments, IsPlain s) : resolve done segments = done.reverse ++ segments := by
  induction segments generalizing done with
  | nil => simp [resolve]
  | cons segment rest ih =>
      have hp := (h segment List.mem_cons_self).not_parent
      have hh := (h segment List.mem_cons_self).not_here
      cases rest with
      | nil => simp [resolve, hp, hh]
      | cons next rest =>
          rw [resolve, hp, hh, if_neg Bool.false_ne_true, if_neg Bool.false_ne_true,
            ih _ fun s hs => h s (List.mem_cons_of_mem segment hs)]
          · simp
          · exact List.cons_ne_nil _ _

theorem not_inPath_of_mem_intercalate {segments : List (List Char)}
    (h : ∀ s ∈ segments, IsPlain s) :
    ∀ c ∈ List.intercalate ['/'] segments, Escaped.inPath c = false := by
  intro c hc
  rcases Text.mem_intercalate hc with rfl | ⟨segment, hmem, hc⟩
  · decide
  · exact (h segment hmem).escaped c hc

/-- The text of plain segments is normal. -/
theorem normalize_intercalate {segments : List (List Char)} (hne : segments ≠ [])
    (h : ∀ s ∈ segments, IsPlain s) :
    normalize (List.intercalate ['/'] segments) = ofSegments segments := by
  rw [normalize, Text.Percent.encode_eq_self (not_inPath_of_mem_intercalate h),
    List.splitOn_intercalate '/' (fun s hs => (h s hs).no_slash) hne, resolve_eq_self [] h]
  rfl

/-- What a path is made of: either nothing, or a slash and plain segments. -/
structure IsNormal (path : List Char) : Prop where
  fixed : otherPath path = path
  escaped : ∀ c ∈ path, Escaped.inPath c = false

/-- A normal path that is not empty starts with a slash. -/
theorem IsNormal.head? {path : List Char} (h : IsNormal path) {c : Char}
    (hc : path.head? = some c) : c = '/' := by
  have hfixed := h.fixed
  unfold otherPath at hfixed
  split at hfixed
  · cases hc
  · rw [← hfixed] at hc
    exact (Option.some.inj hc).symm
  · rw [← hfixed] at hc
    exact (Option.some.inj hc).symm

/-- A normal path ends at the mark of a query and at that of a fragment. -/
theorem IsNormal.marks_not_mem {path : List Char} (h : IsNormal path) :
    '?' ∉ path ∧ '#' ∉ path := by
  constructor
  · exact fun hmem => absurd (h.escaped '?' hmem) (by decide)
  · exact fun hmem => absurd (h.escaped '#' hmem) (by decide)

theorem isNormal_nil : IsNormal [] := ⟨rfl, fun _ h => nomatch h⟩

theorem inPath_escapeChars : ∀ c ∈ Text.Percent.escapeChars, Escaped.inPath c = false :=
  Text.forall_of_all (by decide)

/-- A path that has been read stays as it is. -/
theorem isNormal_normalize (cs : List Char) : IsNormal (normalize cs) := by
  have hsegments : ∀ s ∈ (Text.Percent.encode Escaped.inPath cs).splitOn '/',
      '/' ∉ s ∧ ∀ c ∈ s, Escaped.inPath c = false := by
    intro s hs
    obtain ⟨hslash, hmem⟩ := Text.mem_splitOn hs
    exact ⟨hslash, fun c hc =>
      Text.Percent.not_escaped_of_mem_encode inPath_escapeChars (hmem c hc)⟩
  have hplain := isPlain_of_mem_resolve
    (fun s (h : s ∈ ([] : List (List Char))) => nomatch h) hsegments
  have hne := resolve_ne_nil [] (List.splitOn_ne_nil '/' (Text.Percent.encode Escaped.inPath cs))
  constructor
  · exact normalize_intercalate hne hplain
  · intro c hc
    rcases List.mem_cons.1 hc with rfl | hc
    · decide
    · exact not_inPath_of_mem_intercalate hplain c hc

theorem isNormal_otherPath (cs : List Char) : IsNormal (otherPath cs) := by
  unfold otherPath
  split
  · exact isNormal_nil
  · exact isNormal_normalize _
  · exact isNormal_normalize _

end LinkSieve.Url.Path
