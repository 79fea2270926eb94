import LinkSieve.Decimal.Shortest
import LinkSieve.Table

/-!
# JSON values

Values with numbers of two kinds: integers of 64 bits, signed or not, and double-precision
numbers. The fields of an object keep the order and the repetitions they were written with; the
canonical form of a value has each name once, with the value written last, in the order of names.
-/

namespace LinkSieve

namespace Json

/-- A number of JSON. -/
inductive Number where
  | int (n : Int)
  | float (x : Decimal.Binary64)
deriving DecidableEq, Repr

end Json

/-- A value of JSON. -/
inductive Json where
  | null
  | bool (b : Bool)
  | number (n : Json.Number)
  | text (s : String)
  | array (items : List Json)
  | object (fields : List (String × Json))
deriving Repr

namespace Json

instance : Inhabited Json := ⟨.null⟩

mutual

/-- The value with the fields of every object sorted by name, of which each keeps the value
written last. -/
def canonical : Json → Json
  | .array items => .array (canonicalItems items)
  | .object fields => .object (canonicalFields fields).entries
  | value => value

/-- The canonical forms of the items of an array. -/
def canonicalItems : List Json → List Json
  | [] => []
  | item :: rest => item.canonical :: canonicalItems rest

/-- The canonical forms of the fields of an object as a table. A field gives way to a later one
of the same name. -/
def canonicalFields : List (String × Json) → Table Json
  | [] => .empty
  | (name, value) :: rest => (canonicalFields rest).insertIfNew name value.canonical

end

end Json

end LinkSieve
