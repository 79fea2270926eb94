import LinkSieve.Json.Value
import LinkSieve.Proofs.Table

/-!
# Properties of JSON values at every depth

What holds of all numbers in a value, how deep a value nests, and when a value is canonical. A
canonical value is its own canonical form, and the canonical form of a value has no number and no
nesting that the value has not.
-/

namespace LinkSieve.Json

/-- Every number in a value, at whatever depth, satisfies `P`. -/
inductive Holds (P : Number → Prop) : Json → Prop where
  | null : Holds P .null
  | bool (b : Bool) : Holds P (.bool b)
  | number {n : Number} (h : P n) : Holds P (.number n)
  | text (s : String) : Holds P (.text s)
  | array {items : List Json} (h : ∀ item ∈ items, Holds P item) : Holds P (.array items)
  | object {fields : List (String × Json)} (h : ∀ field ∈ fields, Holds P field.2) :
    Holds P (.object fields)

/-- Arrays and objects stand within each other at most as deep as given. -/
inductive Nests : Nat → Json → Prop where
  | null {depth : Nat} : Nests depth .null
  | bool {depth : Nat} (b : Bool) : Nests depth (.bool b)
  | number {depth : Nat} (n : Number) : Nests depth (.number n)
  | text {depth : Nat} (s : String) : Nests depth (.text s)
  | array {depth : Nat} {items : List Json} (h : ∀ item ∈ items, Nests depth item) :
    Nests (depth + 1) (.array items)
  | object {depth : Nat} {fields : List (String × Json)}
    (h : ∀ field ∈ fields, Nests depth field.2) : Nests (depth + 1) (.object fields)

/-- The fields of every object stand in the order of names, each name once. -/
inductive IsCanonical : Json → Prop where
  | null : IsCanonical .null
  | bool (b : Bool) : IsCanonical (.bool b)
  | number (n : Number) : IsCanonical (.number n)
  | text (s : String) : IsCanonical (.text s)
  | array {items : List Json} (h : ∀ item ∈ items, IsCanonical item) : IsCanonical (.array items)
  | object {fields : List (String × Json)} (sorted : fields.Pairwise fun a b => a.1 < b.1)
    (h : ∀ field ∈ fields, IsCanonical field.2) : IsCanonical (.object fields)

theorem Holds.and {P Q : Number → Prop} {v : Json} (hp : v.Holds P) (hq : v.Holds Q) :
    v.Holds fun n => P n ∧ Q n := by
  induction hp with
  | null => exact .null
  | bool b => exact .bool b
  | number hn =>
      cases hq with
      | number hn' => exact .number ⟨hn, hn'⟩
  | text s => exact .text s
  | array _ ih =>
      cases hq with
      | array hq => exact .array fun item hi => ih item hi (hq item hi)
  | object _ ih =>
      cases hq with
      | object hq => exact .object fun field hf => ih field hf (hq field hf)

/-- A number that is kept as an integer of 64 bits. -/
def Number.IsInteger : Number → Prop
  | .int _ => True
  | .float _ => False

/-- The integers that are kept as integers are those of 64 bits, signed or not. -/
def Number.InRange : Number → Prop
  | .int n => -0x8000_0000_0000_0000 ≤ n ∧ n < 0x1_0000_0000_0000_0000
  | .float _ => True

theorem canonicalItems_eq_map (items : List Json) : canonicalItems items = items.map canonical := by
  induction items with
  | nil => rfl
  | cons item rest ih => rw [canonicalItems, ih, List.map_cons]

/-- Every field of a canonical form is the canonical form of a field of that name. -/
theorem mem_canonicalFields {fields : List (String × Json)} {e : String × Json}
    (h : e ∈ (canonicalFields fields).entries) :
    ∃ field ∈ fields, e = (field.1, field.2.canonical) := by
  induction fields with
  | nil => cases h
  | cons field rest ih =>
      obtain ⟨name, value⟩ := field
      have hrest (h : e ∈ (canonicalFields rest).entries) :
          ∃ field ∈ (name, value) :: rest, e = (field.1, field.2.canonical) := by
        obtain ⟨field, hmem, he⟩ := ih h
        exact ⟨field, List.mem_cons_of_mem _ hmem, he⟩
      rw [canonicalFields, Table.insertIfNew] at h
      split at h
      · exact hrest h
      · rcases Table.mem_insertEntry h with rfl | h
        · exact ⟨(name, value), List.mem_cons_self, rfl⟩
        · exact hrest h

theorem Holds.canonical {P : Number → Prop} {v : Json} (h : v.Holds P) : v.canonical.Holds P := by
  induction h with
  | null => exact .null
  | bool b => exact .bool b
  | number h => exact .number h
  | text s => exact .text s
  | array h ih =>
      rw [Json.canonical, canonicalItems_eq_map]
      constructor
      intro item hitem
      obtain ⟨old, hold, rfl⟩ := List.mem_map.1 hitem
      exact ih old hold
  | object h ih =>
      rw [Json.canonical]
      constructor
      intro field hfield
      obtain ⟨old, hold, rfl⟩ := mem_canonicalFields hfield
      exact ih old hold

theorem Nests.canonical {depth : Nat} {v : Json} (h : v.Nests depth) : v.canonical.Nests depth := by
  induction h with
  | null => exact .null
  | bool b => exact .bool b
  | number n => exact .number n
  | text s => exact .text s
  | array h ih =>
      rw [Json.canonical, canonicalItems_eq_map]
      constructor
      intro item hitem
      obtain ⟨old, hold, rfl⟩ := List.mem_map.1 hitem
      exact ih old hold
  | object h ih =>
      rw [Json.canonical]
      constructor
      intro field hfield
      obtain ⟨old, hold, rfl⟩ := mem_canonicalFields hfield
      exact ih old hold

mutual

theorem isCanonical_canonical : ∀ v : Json, IsCanonical v.canonical
  | .null => .null
  | .bool b => .bool b
  | .number n => .number n
  | .text s => .text s
  | .array items => by
      rw [canonical]
      exact .array (isCanonical_of_mem_canonicalItems items)
  | .object fields => by
      rw [canonical]
      exact .object (canonicalFields fields).sorted (isCanonical_of_mem_canonicalFields fields)

theorem isCanonical_of_mem_canonicalItems :
    ∀ items : List Json, ∀ item ∈ canonicalItems items, IsCanonical item
  | [] => fun _ h => nomatch h
  | first :: rest => by
      rw [canonicalItems]
      intro item hitem
      rcases List.mem_cons.1 hitem with rfl | hitem
      · exact isCanonical_canonical first
      · exact isCanonical_of_mem_canonicalItems rest item hitem

theorem isCanonical_of_mem_canonicalFields : ∀ fields : List (String × Json),
    ∀ field ∈ (canonicalFields fields).entries, IsCanonical field.2
  | [] => fun _ h => nomatch h
  | (name, value) :: rest => by
      rw [canonicalFields, Table.insertIfNew]
      intro field hfield
      split at hfield
      · exact isCanonical_of_mem_canonicalFields rest field hfield
      · rcases Table.mem_insertEntry hfield with rfl | hfield
        · exact isCanonical_canonical value
        · exact isCanonical_of_mem_canonicalFields rest field hfield

end

/-- Sorted fields with canonical values are their own canonical form. -/
theorem canonicalFields_eq_self {entries : List (String × Json)}
    (sorted : entries.Pairwise fun a b => a.1 < b.1)
    (h : ∀ e ∈ entries, e.2.canonical = e.2) : canonicalFields entries = ⟨entries, sorted⟩ := by
  induction entries with
  | nil => rfl
  | cons e rest ih =>
      obtain ⟨name, value⟩ := e
      obtain ⟨hfirst, hsorted⟩ := List.pairwise_cons.1 sorted
      have hvalue : value.canonical = value := h _ List.mem_cons_self
      have hrest := ih hsorted fun e he => h e (List.mem_cons_of_mem _ he)
      have hnone : Table.contains ⟨rest, hsorted⟩ name = false := by
        rw [Table.contains, Table.get?_eq_lookup, Table.lookup_eq_none_of_lt hfirst]
        rfl
      have hinsert : Table.insertEntry name value rest = (name, value) :: rest := by
        cases rest with
        | nil => rfl
        | cons next rest => rw [Table.insertEntry, if_pos (hfirst next List.mem_cons_self)]
      rw [canonicalFields, hrest, hvalue, Table.insertIfNew, hnone, if_neg Bool.false_ne_true]
      exact Table.eq_of_entries_eq hinsert

/-- A canonical value is its own canonical form. -/
theorem IsCanonical.canonical_eq_self {v : Json} (h : IsCanonical v) : v.canonical = v := by
  induction h with
  | null => rfl
  | bool b => rfl
  | number n => rfl
  | text s => rfl
  | @array items h ih =>
      have hmap : items.map canonical = items := by
        calc
          items.map canonical = items.map id := List.map_congr_left ih
          _ = items := List.map_id items
      rw [canonical, canonicalItems_eq_map, hmap]
  | object sorted h ih => rw [canonical, canonicalFields_eq_self sorted ih]

/-- A table of fields as they are read is the canonical form of its entries. -/
theorem canonicalFields_canonicalFields (fields : List (String × Json)) :
    canonicalFields (canonicalFields fields).entries = canonicalFields fields :=
  canonicalFields_eq_self (canonicalFields fields).sorted fun e he =>
    (isCanonical_of_mem_canonicalFields fields e he).canonical_eq_self

end LinkSieve.Json
