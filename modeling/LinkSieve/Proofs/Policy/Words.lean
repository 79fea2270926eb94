import LinkSieve.Policy.Words
import LinkSieve.Proofs.Text.Label

/-!
# Banned words in labels

A word is looked for in the text behind all escapes of a label, so the label meets the same fate
however often it has been escaped and whatever has been escaped in it.

A term of the list that a label without escapes writes out is found there, with two exceptions. No
plus sign is left in a label when it is searched, so no term with a plus sign is found anywhere.
And the lower case of a sigma depends on whether a word ends with it, so a term may be missed where
a word goes on in the label that ends in the term.
-/

namespace LinkSieve.Policy.WordList

open Text.Label (Layer Layers Escapes)

/-- The word found in a label depends on the text behind its escapes only, and on whether the label
is empty. -/
theorem find?_congr (list : WordList) {a b : String} (hempty : a = "" ↔ b = "")
    (hdecode : Text.Label.decode a.toList = Text.Label.decode b.toList) :
    list.find? a = list.find? b := by
  have hisEmpty : a.isEmpty = b.isEmpty := by
    rw [Bool.eq_iff_iff, String.isEmpty_iff, String.isEmpty_iff, hempty]
  rw [find?, find?, hisEmpty, hdecode]

/-- Layers of escapes on a label change neither the text behind it nor the banned word that is
found in it. -/
theorem find?_of_layers (list : WordList) {n : Nat} {label escaped : String}
    (h : Layers n label.toList escaped.toList) :
    list.find? escaped = list.find? label ∧
      Text.Label.decode escaped.toList = Text.Label.decode label.toList := by
  have hempty : escaped = "" ↔ label = "" := by
    rw [← String.toList_eq_nil_iff, ← String.toList_eq_nil_iff]
    exact h.eq_nil_iff
  exact ⟨find?_congr list hempty h.decode_eq, h.decode_eq⟩

theorem find?_of_layers_two :
    Layers 2 "B+d".toList "B%252b%2564".toList ∧
      (WordList.find? ⟨["b d"]⟩ "B%252b%2564" = WordList.find? ⟨["b d"]⟩ "B+d" ∧
        Text.Label.decode "B%252b%2564".toList = Text.Label.decode "B+d".toList) :=
  have hplus : Escapes (String.utf8EncodeChar '+') "%2b".toList := .cons (.inl rfl) (.inr rfl) .nil
  have hletter : Escapes (String.utf8EncodeChar 'd') "%64".toList :=
    .cons (.inl rfl) (.inl rfl) .nil
  have hpercent : Escapes (String.utf8EncodeChar '%') "%25".toList :=
    .cons (.inl rfl) (.inl rfl) .nil
  have hfirst := Layer.keep (c := 'B') (by decide) (by decide)
    (.escape hplus (.escape hletter .nil))
  have hdigits := fun (cs ds : List Char) (h : Layer cs ds) (a b : Char)
    (ha : a ≠ '%' ∧ a ≠ '+') (hb : b ≠ '%' ∧ b ≠ '+') =>
      Layer.escape hpercent (.keep ha.1 ha.2 (.keep hb.1 hb.2 h))
  have hsecond := Layer.keep (c := 'B') (by decide) (by decide)
    (hdigits _ _ (hdigits _ _ .nil '6' '4' (by decide) (by decide)) '2' 'b' (by decide) (by decide))
  have hlayers : Layers 2 "B+d".toList "B%252b%2564".toList :=
    .more hfirst (.more hsecond (.none _))
  ⟨hlayers, find?_of_layers ⟨["b d"]⟩ hlayers⟩

theorem find?_eq_some {list : WordList} {label word : String} (h : list.find? label = some word) :
    word ∈ list.words ∧ word.toList <:+: Text.lower (Text.Label.decode label.toList) := by
  rw [find?] at h
  split at h
  · contradiction
  · have hoccurs := List.find?_some h
    exact ⟨List.mem_of_find?_eq_some h, Text.occursIn_iff.1 hoccurs⟩

/-- A word with a plus sign is found in no label. -/
theorem plus_not_mem_of_find? {list : WordList} {label word : String}
    (h : list.find? label = some word) : '+' ∉ word.toList := fun hmem =>
  Text.plus_not_mem_lowerAfter (Text.Label.plus_not_mem_decode label.toList) []
    ((find?_eq_some h).2.subset hmem)

theorem isSome_find? {list : WordList} {label word : String} (hlabel : label ≠ "")
    (hword : word ∈ list.words)
    (hoccurs : word.toList <:+: Text.lower (Text.Label.decode label.toList)) :
    (list.find? label).isSome := by
  rw [find?, if_neg (by rwa [String.isEmpty_iff]), List.find?_isSome]
  exact ⟨word, hword, Text.occursIn_iff.2 hoccurs⟩

theorem normalize_mem_ofTerms {terms : List String} {term : String} (hterm : term ∈ terms)
    (hblank : Text.trim term.toList ≠ []) : normalize term ∈ (ofTerms terms).words := by
  refine List.mem_filter.2 ⟨List.mem_map_of_mem hterm, ?_⟩
  rw [decide_eq_true_iff, ne_eq, ← String.toList_eq_nil_iff, normalize, String.toList_ofList]
  exact Text.lower_ne_nil hblank

/-- A label writes out a term: it holds the term without the blanks around it, and in the label a
sigma of the term ends a word where it does in the term. -/
def Writes (label term : String) : Prop :=
  ∃ before after, label.toList = before ++ Text.trim term.toList ++ after ∧
    Text.KeepsSigmas before.reverse (Text.trim term.toList) after

/-- A label that writes out a term of the list is banned. -/
theorem isSome_find?_of_writes {terms : List String} {term label : String} (hterm : term ∈ terms)
    (hblank : Text.trim term.toList ≠ []) (hplus : '+' ∉ Text.trim term.toList)
    (hpercent : '%' ∉ label.toList) (hwrites : Writes label term) :
    ((ofTerms terms).find? label).isSome := by
  obtain ⟨before, after, hlabel, hsigmas⟩ := hwrites
  have hne : label ≠ "" := by
    rw [ne_eq, ← String.toList_eq_nil_iff, hlabel]
    simp [hblank]
  have hoccurs := Text.isInfix_lower (Text.Label.keepsSigmas_spaced hplus hsigmas)
  refine isSome_find? hne (normalize_mem_ofTerms hterm hblank) ?_
  rw [normalize, String.toList_ofList, Text.Label.decode_of_not_mem hpercent, hlabel,
    Text.Label.spaced_append, Text.Label.spaced_append, Text.Label.spaced_eq_self hplus]
  exact hoccurs

theorem isSome_find?_of_writes_spaced :
    (" Bad Word " ∈ ["c++", " Bad Word "] ∧ Text.trim " Bad Word ".toList ≠ [] ∧
      '+' ∉ Text.trim " Bad Word ".toList ∧ '%' ∉ "1+Bad Word!".toList ∧
      Writes "1+Bad Word!" " Bad Word ") ∧
      ((ofTerms ["c++", " Bad Word "]).find? "1+Bad Word!").isSome :=
  have hsigmas : Text.KeepsSigmas "+1".toList "Bad Word".toList "!".toList :=
    Text.keepsSigmas_of_not_mem (by decide) _ _
  have hwrites : Writes "1+Bad Word!" " Bad Word " := ⟨"1+".toList, "!".toList, by decide, hsigmas⟩
  ⟨⟨by decide, by decide, by decide, by decide, hwrites⟩,
    isSome_find?_of_writes (by decide) (by decide) (by decide) (by decide) hwrites⟩

/-- Two terms that are missed in labels that hold them: one for its plus signs, one since its sigma
ends no word in the label. -/
theorem find?_misses_held_terms :
    ((Text.trim "c++".toList ≠ [] ∧ '%' ∉ "learn c++ here".toList ∧
        Text.trim "c++".toList <:+: "learn c++ here".toList) ∧
      (ofTerms ["c++"]).find? "learn c++ here" = none) ∧
    (Text.trim "ΟΔΟΣ".toList ≠ [] ∧ '%' ∉ "ΟΔΟΣΑ".toList ∧
        Text.trim "ΟΔΟΣ".toList <:+: "ΟΔΟΣΑ".toList) ∧
      (ofTerms ["ΟΔΟΣ"]).find? "ΟΔΟΣΑ" = none := by
  have hwords : (ofTerms ["c++"]).words = ["c++"] := by decide +kernel
  have hplus : (ofTerms ["c++"]).find? "learn c++ here" = none := by
    rw [Option.eq_none_iff_forall_not_mem]
    intro word hfound
    have hmem := (find?_eq_some hfound).1
    rw [hwords, List.mem_singleton] at hmem
    rw [hmem] at hfound
    exact plus_not_mem_of_find? hfound (by decide)
  exact ⟨⟨by decide +kernel, hplus⟩, by decide +kernel⟩

end LinkSieve.Policy.WordList
