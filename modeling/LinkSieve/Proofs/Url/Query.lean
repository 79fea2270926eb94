import LinkSieve.Proofs.Table
import LinkSieve.Proofs.Text.Percent
import LinkSieve.Proofs.Text.Split
import LinkSieve.Url.Query

/-!
# Reading back a query

The written form of a list of pairs reads back as that list, and the pairs of a table of
parameters, read in any order that keeps the values of one name in theirs, make up that table
again. Parameters that all have a value are made up again by the pairs that they are written as.
-/

namespace LinkSieve

namespace Url

/-- The set whose characters a name or a value escapes; a space becomes a plus sign instead. -/
def formSet (c : Char) : Bool :=
  escapedInForm c && c ≠ ' '

theorem mem_encodeForm {c : Char} {cs : List Char} (h : c ∈ encodeForm cs) :
    escapedInForm c = false ∨ c = '+' ∨ c = '%' := by
  have hescape : ∀ d ∈ Text.Percent.escapeChars, escapedInForm d = false ∨ d = '%' :=
    Text.forall_of_all (by decide)
  obtain ⟨d, hd, rfl⟩ := List.mem_map.1 h
  split
  · exact .inr (.inl rfl)
  · rename_i hspace
    rcases Text.Percent.mem_encode hd with ⟨-, hset⟩ | hmem
    · left
      simpa [hspace] using hset
    · exact (hescape d hmem).imp id .inr

theorem not_mem_encodeForm {c : Char} (h : c = '&' ∨ c = '=' ∨ c = '#') (cs : List Char) :
    c ∉ encodeForm cs := by
  intro hmem
  rcases h with rfl | rfl | rfl <;> exact absurd (mem_encodeForm hmem) (by decide)

/-- A name or a value reads back from its written form. -/
theorem decodeForm_encodeForm (cs : List Char) : decodeForm (encodeForm cs) = cs := by
  have hplus : ∀ c ∈ Text.Percent.encode formSet cs, c ≠ '+' := by
    rintro c hc rfl
    rcases Text.Percent.mem_encode hc with ⟨-, h⟩ | h
    · exact absurd h (by decide)
    · exact absurd h (by decide)
  have hback : (encodeForm cs).map (fun c => if c = '+' then ' ' else c) =
      Text.Percent.encode formSet cs := by
    calc
      (encodeForm cs).map (fun c => if c = '+' then ' ' else c) =
          (Text.Percent.encode formSet cs).map id := by
        rw [encodeForm, List.map_map]
        apply List.map_congr_left
        intro c hc
        by_cases hspace : c = ' '
        · simp [hspace]
        · simp [hspace, hplus c hc]
      _ = Text.Percent.encode formSet cs := List.map_id _
  rw [decodeForm, hback, Text.Percent.decode_encode fun _ => rfl,
    Text.Utf8.decodeLossy_encode]

theorem readPair_pairText (pair : String × String) : readPair (pairText pair) = pair := by
  rw [readPair, pairText,
    Text.cutOption_append_cons (not_mem_encodeForm (.inr (.inl rfl)) pair.1.toList)]
  simp only [Option.getD_some, decodeForm_encodeForm, String.ofList_toList]

theorem pairText_ne_nil (pair : String × String) : pairText pair ≠ [] := by
  simp [pairText]

theorem ampersand_not_mem_pairText (pair : String × String) : '&' ∉ pairText pair := by
  rw [pairText, List.mem_append, List.mem_cons]
  rintro (h | h | h)
  · exact not_mem_encodeForm (.inl rfl) _ h
  · exact absurd h (by decide)
  · exact not_mem_encodeForm (.inl rfl) _ h

/-- A list of pairs reads back from its text. -/
theorem readPairs_pairsText (pairs : List (String × String)) :
    readPairs (pairsText pairs) = pairs := by
  cases pairs with
  | nil => rfl
  | cons pair rest =>
      have hsplit : (pairsText (pair :: rest)).splitOn '&' = (pair :: rest).map pairText := by
        apply List.splitOn_intercalate
        · intro piece hpiece
          obtain ⟨p, -, rfl⟩ := List.mem_map.1 hpiece
          exact ampersand_not_mem_pairText p
        · simp
      have hfilter : ((pair :: rest).map pairText).filter (!·.isEmpty) =
          (pair :: rest).map pairText := by
        rw [List.filter_eq_self]
        intro piece hpiece
        obtain ⟨p, -, rfl⟩ := List.mem_map.1 hpiece
        simpa using pairText_ne_nil p
      rw [readPairs, hsplit, hfilter, List.map_map]
      exact Text.map_eq_self fun p _ => readPair_pairText p

/-- The text of pairs consists of letters, digits and a few marks. -/
theorem mem_pairsText {c : Char} {pairs : List (String × String)} (h : c ∈ pairsText pairs) :
    escapedInForm c = false ∨ c ∈ "+%=&".toList := by
  have hform {d : Char} {cs : List Char} (hd : d ∈ encodeForm cs) :
      escapedInForm d = false ∨ d ∈ "+%=&".toList := by
    rcases mem_encodeForm hd with hd | rfl | rfl
    · exact .inl hd
    · exact .inr (by decide)
    · exact .inr (by decide)
  have hpair {d : Char} {pair : String × String} (hd : d ∈ pairText pair) :
      escapedInForm d = false ∨ d ∈ "+%=&".toList := by
    rw [pairText, List.mem_append, List.mem_cons] at hd
    rcases hd with hd | rfl | hd
    · exact hform hd
    · exact .inr (by decide)
    · exact hform hd
  rw [pairsText] at h
  rcases Text.mem_intercalate h with rfl | ⟨written, hwritten, hc⟩
  · exact .inr (by decide)
  · obtain ⟨pair, -, rfl⟩ := List.mem_map.1 hwritten
    exact hpair hc

end Url

namespace Query

open Url (readPairs pairsText)

/-- The values of a name in a list of pairs. -/
def valuesOf (name : String) (pairs : List (String × String)) : List String :=
  (pairs.filter (·.1 = name)).map (·.2)

theorem valuesOf_cons (name : String) (pair : String × String) (pairs : List (String × String)) :
    valuesOf name (pair :: pairs) =
      if pair.1 = name then pair.2 :: valuesOf name pairs else valuesOf name pairs := by
  rw [valuesOf, List.filter_cons]
  by_cases h : pair.1 = name
  · simp [h, valuesOf]
  · simp [h, valuesOf]

theorem valuesOf_append (name : String) (as bs : List (String × String)) :
    valuesOf name (as ++ bs) = valuesOf name as ++ valuesOf name bs := by
  simp [valuesOf]

/-- Values as they stand in a table: a name without values does not occur. -/
def entryOf (values : List String) : Option (List String) :=
  if values.isEmpty then none else some values

theorem get?_add (q : Query) (name value n : String) :
    (q.add name value).get? n =
      if n = name then some ((q.get? name).getD [] ++ [value]) else q.get? n :=
  Table.get?_insert q name _ n

/-- Adding pairs to parameters adds the values of each name at the end of its list. -/
theorem get?_foldl_add (pairs : List (String × String)) (q : Query)
    (hq : ∀ n, q.get? n = entryOf ((q.get? n).getD [])) (n : String) :
    (pairs.foldl (fun q pair => q.add pair.1 pair.2) q).get? n =
      entryOf ((q.get? n).getD [] ++ valuesOf n pairs) := by
  induction pairs generalizing q with
  | nil => simpa [valuesOf] using hq n
  | cons pair rest ih =>
      have hadd (m : String) : (q.add pair.1 pair.2).get? m =
          entryOf (((q.add pair.1 pair.2).get? m).getD []) := by
        rw [get?_add]
        split
        · simp [entryOf]
        · exact hq m
      rw [List.foldl_cons, ih _ hadd, get?_add, valuesOf_cons]
      by_cases hn : n = pair.1
      · simp [hn]
      · simp [hn, Ne.symm hn]

theorem getD_entryOf (values : List String) : (entryOf values).getD [] = values := by
  cases values with
  | nil => rfl
  | cons value values => rfl

/-- Parameters made from pairs have at each name the values of that name, in their order. -/
theorem get?_ofPairs (pairs : List (String × String)) (n : String) :
    (ofPairs pairs).get? n = entryOf (valuesOf n pairs) := by
  rw [ofPairs, get?_foldl_add pairs Table.empty (fun m => rfl)]
  rfl

theorem head?_valuesOf (name : String) (pairs : List (String × String)) :
    (valuesOf name pairs).head? = pairs.lookup name := by
  induction pairs with
  | nil => rfl
  | cons pair rest ih =>
      rw [valuesOf_cons, Table.lookup_cons_eq_if]
      by_cases h : pair.1 = name
      · rw [if_pos h, if_pos h.symm]
        rfl
      · rw [if_neg h, if_neg (Ne.symm h), ih]

/-- Of each name in a list of pairs, the first value counts. -/
theorem get?_first_ofPairs (pairs : List (String × String)) (name : String) :
    (ofPairs pairs).first.get? name = pairs.lookup name := by
  rw [first, Table.get?_filterMap, get?_ofPairs, ← head?_valuesOf, entryOf]
  split
  · rename_i hempty
    rw [List.isEmpty_iff.1 hempty]
    rfl
  · rfl

/-- A further value of a name that already has one does not count. -/
theorem first_ofPairs_append_of_mem {pairs : List (String × String)} {pair other : String × String}
    (hmem : other ∈ pairs) (hname : pair.1 = other.1) :
    (ofPairs (pairs ++ [pair])).first = (ofPairs pairs).first := by
  apply Table.ext_get?
  intro name
  rw [get?_first_ofPairs, get?_first_ofPairs, List.lookup_append]
  by_cases h : name = pair.1
  · have hsome : pairs.lookup name ≠ none := by
      rw [← head?_valuesOf, Ne, List.head?_eq_none_iff, valuesOf, List.map_eq_nil_iff]
      refine List.ne_nil_of_mem (List.mem_filter.2 ⟨hmem, decide_eq_true ?_⟩)
      rw [h, hname]
    obtain ⟨value, hvalue⟩ := Option.ne_none_iff_exists'.1 hsome
    rw [hvalue]
    rfl
  · rw [Table.lookup_cons_eq_if, if_neg h]
    exact Option.or_none

/-- Every name has a value. -/
def IsFull (q : Query) : Prop :=
  ∀ name, q.get? name ≠ some []

theorem isFull_ofPairs (pairs : List (String × String)) : (ofPairs pairs).IsFull := by
  intro name h
  rw [get?_ofPairs, entryOf] at h
  split at h
  · simp at h
  · rename_i hne
    exact hne (by rw [Option.some.inj h]; rfl)

theorem IsFull.erase {q : Query} (h : q.IsFull) (name : String) :
    IsFull (Table.erase q name) := by
  intro n hn
  rw [Table.get?_erase] at hn
  split at hn
  · simp at hn
  · exact h n hn

theorem IsFull.insert {q : Query} (h : q.IsFull) (name : String) {values : List String}
    (hv : values ≠ []) : IsFull (Table.insert q name values) := by
  intro n hn
  rw [Table.get?_insert] at hn
  split at hn
  · exact hv (Option.some.inj hn)
  · exact h n hn

theorem valuesOf_pairs (q : Query) (n : String) :
    valuesOf n q.pairs = (q.get? n).getD [] := by
  have hsorted := q.sorted
  rw [pairs, Table.get?_eq_lookup]
  generalize q.entries = entries at hsorted ⊢
  induction entries with
  | nil => rfl
  | cons entry rest ih =>
      obtain ⟨hentry, hrest⟩ := List.pairwise_cons.1 hsorted
      have hsame : valuesOf n (entry.2.map (entry.1, ·)) = if entry.1 = n then entry.2 else [] := by
        by_cases hn : entry.1 = n
        · simp [valuesOf, hn, List.filter_map, Function.comp_def]
        · simp [valuesOf, hn, List.filter_map, Function.comp_def]
      rw [List.flatMap_cons, valuesOf_append, hsame, ih hrest, Table.lookup_cons_eq_if]
      by_cases hn : n = entry.1
      · subst hn
        simp [Table.lookup_eq_none_of_lt hentry]
      · simp [hn, Ne.symm hn]

/-- The pairs of parameters stand in the order of names. -/
theorem pairwise_pairs (q : Query) : q.pairs.Pairwise fun a b => a.1 ≤ b.1 := by
  refine List.pairwise_flatMap.2 ⟨fun e _ => ?_, q.sorted.imp fun {e d} hlt => ?_⟩
  · exact List.pairwise_map.2 (List.pairwise_of_forall fun _ _ => String.le_refl e.1)
  · intro a ha b hb
    obtain ⟨_, -, rfl⟩ := List.mem_map.1 ha
    obtain ⟨_, -, rfl⟩ := List.mem_map.1 hb
    exact String.not_lt.1 fun hgt => String.lt_irrefl e.1 (String.lt_trans hlt hgt)

/-- Parameters that all have a value are made up again by their pairs. -/
theorem ofPairs_pairs {q : Query} (h : q.IsFull) : ofPairs q.pairs = q := by
  apply Table.ext_get?
  intro n
  rw [get?_ofPairs, valuesOf_pairs]
  cases hn : q.get? n with
  | none => rfl
  | some values =>
      have hne : values ≠ [] := fun hnil => h n (hnil ▸ hn)
      rw [Option.getD_some, entryOf, if_neg (by simpa using hne)]

end Query

end LinkSieve
