import LinkSieve.Proofs.Decimal.Digits
import LinkSieve.Proofs.Text.Split
import LinkSieve.Text.Quoted

/-!
# Quoted text stays on one line

Whatever a text holds, in quotes it holds only characters that show: each one that does not is
given by a letter or by its code point. So a text that is put together from quoted values and from
texts on one line is on one line.
-/

namespace LinkSieve.Text

namespace Quoted

variable {marks cs : List Char} {c d : Char}

theorem isVisible_digitChar : ∀ c ∈ Decimal.digitChars, isVisible c = true :=
  forall_of_all (by decide)

theorem isVisible_of_mem_codePoint (h : d ∈ codePoint c) : isVisible d = true := by
  simp only [codePoint, List.mem_cons, List.mem_append, List.not_mem_nil, or_false] at h
  rcases h with rfl | rfl | rfl | h | rfl
  · decide
  · decide
  · decide
  · exact isVisible_digitChar d (Decimal.mem_digitChars_of_mem_toDigits Decimal.isBase_sixteen h)
  · decide

theorem isVisible_of_mem_encodeChar (hmarks : ∀ m ∈ marks, isVisible m = true)
    (h : d ∈ encodeChar marks c) : isVisible d = true := by
  have hescape (letter : Char) (hletter : isVisible letter = true) (hd : d ∈ ['\\', letter]) :
      isVisible d = true := by
    rcases List.mem_cons.1 hd with rfl | hd
    · decide
    · exact List.mem_singleton.1 hd ▸ hletter
  rw [encodeChar] at h
  split at h
  · exact hescape _ (by decide) h
  split at h
  · exact hescape _ (by decide) h
  split at h
  · exact hescape _ (by decide) h
  split at h
  · exact hescape _ (by decide) h
  split at h
  · rename_i hmark
    exact hescape _ (hmarks c (List.contains_iff_mem.1 hmark)) h
  split at h
  · rename_i hvisible
    exact List.mem_singleton.1 h ▸ hvisible
  · exact isVisible_of_mem_codePoint h

/-- A text in quotes holds only characters that show. -/
theorem isVisible_of_mem_encode (hmarks : ∀ m ∈ marks, isVisible m = true)
    (h : d ∈ encode marks cs) : isVisible d = true := by
  rw [encode, List.mem_cons, List.mem_append, List.mem_singleton, List.mem_flatMap] at h
  rcases h with rfl | ⟨c, -, h⟩ | rfl
  · decide
  · exact isVisible_of_mem_encodeChar hmarks h
  · decide

end Quoted

/-- A text without a line feed. -/
def IsOneLine (s : String) : Prop :=
  '\n' ∉ s.toList

instance : DecidablePred IsOneLine :=
  fun _ => inferInstanceAs (Decidable (¬_))

section OneLine

variable {s t sep : String} {pieces : List String}

/-- A literal is the text of its characters, which are quicker to look through than its bytes. -/
theorem isOneLine_ofList {cs : List Char} (h : '\n' ∉ cs) : IsOneLine (String.ofList cs) := by
  rwa [IsOneLine, String.toList_ofList]

@[simp] theorem isOneLine_append : IsOneLine (s ++ t) ↔ IsOneLine s ∧ IsOneLine t := by
  rw [IsOneLine, String.toList_append, List.mem_append, not_or]
  rfl

theorem isOneLine_quoted (s : String) : IsOneLine (quoted s) := by
  intro h
  rw [quoted, String.toList_ofList] at h
  have hvisible := Quoted.isVisible_of_mem_encode (forall_of_all (by decide)) h
  exact absurd hvisible (by decide)

theorem isOneLine_intercalate (hsep : IsOneLine sep) (h : ∀ s ∈ pieces, IsOneLine s) :
    IsOneLine (String.intercalate sep pieces) := by
  induction pieces with
  | nil => exact List.not_mem_nil
  | cons first others ih =>
      have hfirst := h first List.mem_cons_self
      cases others with
      | nil => rwa [String.intercalate_singleton]
      | cons second others =>
          rw [String.intercalate_cons_cons, isOneLine_append, isOneLine_append]
          exact ⟨⟨hfirst, hsep⟩, ih fun s hs => h s (List.mem_cons_of_mem first hs)⟩

theorem isOneLine_quotedList (values : List String) : IsOneLine (quotedList values) := by
  have hvalues : ∀ s ∈ values.map quoted, IsOneLine s := by
    intro s hs
    obtain ⟨value, -, rfl⟩ := List.mem_map.1 hs
    exact isOneLine_quoted value
  simp only [quotedList, isOneLine_append]
  have hjoined : IsOneLine (String.intercalate ", " (values.map quoted)) :=
    isOneLine_intercalate (isOneLine_ofList (by decide)) hvalues
  exact ⟨⟨isOneLine_ofList (by decide), hjoined⟩, isOneLine_ofList (by decide)⟩

end OneLine

end LinkSieve.Text
