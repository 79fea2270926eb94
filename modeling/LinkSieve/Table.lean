/-!
# Tables

A finite map from names to values, kept as its entries in increasing order of names. Two tables
with the same value at every name are the same table, so a table is its own canonical form, and
whatever is written from one comes out in the order of names.
-/

namespace LinkSieve

variable {β γ : Type}

/-- A finite map from names to values. -/
structure Table (β : Type) where
  entries : List (String × β)
  sorted : entries.Pairwise fun a b => a.1 < b.1
deriving DecidableEq, Repr

namespace Table

/-- The table without entries. -/
def empty : Table β := ⟨[], .nil⟩

instance : Inhabited (Table β) := ⟨empty⟩

/-- The entries with a value set at a name. -/
def insertEntry (name : String) (value : β) : List (String × β) → List (String × β)
  | [] => [(name, value)]
  | entry :: rest =>
    if name < entry.1 then (name, value) :: entry :: rest
    else if entry.1 < name then entry :: insertEntry name value rest
    else (name, value) :: rest

/-- Every entry after an insertion is the new one or was there before. -/
theorem mem_insertEntry {name : String} {value : β} {entries : List (String × β)}
    {e : String × β} (h : e ∈ insertEntry name value entries) :
    e = (name, value) ∨ e ∈ entries := by
  induction entries with
  | nil => simpa [insertEntry] using h
  | cons entry rest ih =>
    simp only [insertEntry] at h
    split at h
    · simpa using h
    · split at h
      · rcases List.mem_cons.1 h with rfl | h
        · simp
        · exact (ih h).imp id (List.mem_cons_of_mem _)
      · rcases List.mem_cons.1 h with rfl | h
        · simp
        · exact .inr (List.mem_cons_of_mem _ h)

/-- Insertion keeps the order of names. -/
theorem pairwise_insertEntry (name : String) (value : β) {entries : List (String × β)}
    (h : entries.Pairwise fun a b => a.1 < b.1) :
    (insertEntry name value entries).Pairwise fun a b => a.1 < b.1 := by
  induction entries with
  | nil => simp [insertEntry]
  | cons entry rest ih =>
    obtain ⟨hentry, hrest⟩ := List.pairwise_cons.1 h
    simp only [insertEntry]
    split
    · rename_i hlt
      refine List.pairwise_cons.2 ⟨fun e he => ?_, h⟩
      rcases List.mem_cons.1 he with rfl | he
      · exact hlt
      · exact String.lt_trans hlt (hentry e he)
    · split
      · rename_i hlt
        refine List.pairwise_cons.2 ⟨fun e he => ?_, ih hrest⟩
        rcases mem_insertEntry he with rfl | he
        · exact hlt
        · exact hentry e he
      · rename_i hge hle
        have heq : entry.1 = name :=
          String.le_antisymm (String.not_lt.1 hge) (String.not_lt.1 hle)
        exact List.pairwise_cons.2 ⟨fun e he => heq ▸ hentry e he, hrest⟩

/-- A table with a value set at a name. -/
def insert (t : Table β) (name : String) (value : β) : Table β :=
  ⟨insertEntry name value t.entries, pairwise_insertEntry name value t.sorted⟩

/-- The value at a name. -/
def get? (t : Table β) (name : String) : Option β :=
  t.entries.lookup name

/-- Whether a table has a value at a name. -/
def contains (t : Table β) (name : String) : Bool :=
  (t.get? name).isSome

/-- A table without the value at a name. -/
def erase (t : Table β) (name : String) : Table β :=
  ⟨t.entries.filter fun e => e.1 ≠ name, t.sorted.filter _⟩

/-- A table with a value set at a name that has none. -/
def insertIfNew (t : Table β) (name : String) (value : β) : Table β :=
  if t.contains name then t else t.insert name value

/-- The table of a list of entries, of which a later one replaces an earlier one. -/
def ofList (entries : List (String × β)) : Table β :=
  entries.foldl (fun t e => t.insert e.1 e.2) empty

/-- The names in increasing order. -/
def names (t : Table β) : List String :=
  t.entries.map (·.1)

/-- The number of entries. -/
def size (t : Table β) : Nat :=
  t.entries.length

/-- Whether a table has no entries. -/
def isEmpty (t : Table β) : Bool :=
  t.entries.isEmpty

/-- A table of the values that a function gives, without the entries where it gives none. -/
def filterMap (f : String → β → Option γ) (t : Table β) : Table γ :=
  ⟨t.entries.filterMap fun e => (f e.1 e.2).map (e.1, ·), by
    refine List.Pairwise.filterMap _ (fun a b hab x hx y hy => ?_) t.sorted
    obtain ⟨_, _, rfl⟩ := Option.map_eq_some_iff.1 hx
    obtain ⟨_, _, rfl⟩ := Option.map_eq_some_iff.1 hy
    exact hab⟩

/-- A table with a function applied to every value. -/
def map (f : β → γ) (t : Table β) : Table γ :=
  t.filterMap fun _ value => some (f value)

end Table

end LinkSieve
