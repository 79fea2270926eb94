import LinkSieve.Document

/-!
# Tables of TOML

The tables that the headers and the dotted keys of a TOML text build up. A table may be defined
only once: by a header, by dotted keys, or in passing by a header of a table within it, after
which a header of its own may still follow. A list of tables grows by one with each header.
-/

namespace LinkSieve.Toml

/-- How a table came to be. -/
inductive Origin where
  /-- By a header of its own, or as the whole text. -/
  | written
  /-- In passing, by a header of a table within it. -/
  | implied
  /-- By dotted keys. -/
  | dotted
deriving DecidableEq, Repr

/-- A value, a table under construction, or a list of such tables. -/
inductive Tree where
  | value (v : Document)
  | table (origin : Origin) (entries : List (String × Tree))
  | tables (items : List (List (String × Tree)))

/-- The entries of a table under construction. -/
abbrev Entries := List (String × Tree)

namespace Entries

/-- Entries with another value for a key that is there. -/
def replace (key : String) (tree : Tree) (entries : Entries) : Entries :=
  entries.map fun e => if e.1 = key then (key, tree) else e

/-- Changes the table at a path, where `f` is told how the table came to be. Tables that are
missing on the way are made. Dotted keys do not go into tables that have a header. -/
def alter (f : Origin → Entries → Option Entries) (dotted : Bool) :
    List String → Origin → Entries → Option Entries
  | [], origin, entries => f origin entries
  | key :: path, _, entries =>
    match entries.lookup key with
    | none =>
      let origin := if dotted then .dotted else .implied
      (alter f dotted path origin []).map fun sub => entries ++ [(key, .table origin sub)]
    | some (.table origin sub) =>
      if dotted && origin = .written then none
      else (alter f dotted path origin sub).map fun sub => replace key (.table origin sub) entries
    | some (.tables items) =>
      match items.getLast? with
      | some last =>
        (alter f dotted path .written last).map fun last =>
          replace key (.tables (items.dropLast ++ [last])) entries
      | none => none
    | some (.value _) => none

/-- Adds a value under a key to a table that may take it: one made by dotted keys takes only
dotted keys, and only such a table does. -/
def put (dotted : Bool) (key : String) (v : Document) (origin : Origin) (entries : Entries) :
    Option Entries :=
  if decide (origin = .dotted) ≠ dotted || (entries.lookup key).isSome then none
  else some (entries ++ [(key, .value v)])

/-- Adds a value under a dotted key. -/
def define (path : List String) (key : String) (v : Document) (origin : Origin)
    (entries : Entries) : Option Entries :=
  alter (put (!path.isEmpty) key v) true path origin entries

/-- Defines a table by its header. -/
def openTable (key : String) (_ : Origin) (entries : Entries) : Option Entries :=
  match entries.lookup key with
  | none => some (entries ++ [(key, .table .written [])])
  | some (.table .implied sub) =>
    some (entries.filter (·.1 ≠ key) ++ [(key, .table .written sub)])
  | some _ => none

/-- Adds a table to a list of tables by its header. -/
def addTable (key : String) (_ : Origin) (entries : Entries) : Option Entries :=
  match entries.lookup key with
  | none => some (entries ++ [(key, .tables [[]])])
  | some (.tables items) => some (replace key (.tables (items ++ [[]])) entries)
  | some _ => none

end Entries

mutual

/-- The document that a tree stands for. -/
def Tree.document : Tree → Document
  | .value v => v
  | .table _ entries => .table (Tree.entries entries)
  | .tables items => .list (Tree.items items)

/-- The documents of the entries of a table. -/
def Tree.entries : List (String × Tree) → List (String × Document)
  | [] => []
  | (key, tree) :: rest => (key, tree.document) :: Tree.entries rest

/-- The documents of the tables of a list. -/
def Tree.items : List (List (String × Tree)) → List Document
  | [] => []
  | entries :: rest => .table (Tree.entries entries) :: Tree.items rest

end

end LinkSieve.Toml
