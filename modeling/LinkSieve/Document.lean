import LinkSieve.Decimal.Shortest

/-!
# Documents

What a file in a structured format holds, whatever the format: scalars, lists, and tables of
entries in the order in which they are written, repetitions included. A scalar may be understood
as a value of a type and as a text; formats differ in which scalars are texts.
-/

namespace LinkSieve

/-- The value of a scalar. -/
inductive Scalar where
  | null
  | bool (b : Bool)
  | int (n : Int)
  | float (x : Decimal.Binary64)
  | text (s : String)
  /-- A value of a type that only its format knows. -/
  | foreign
deriving DecidableEq, Repr

/-- What a file in a structured format holds. A scalar carries the text that it is where a text is
wanted, if it can be one. -/
inductive Document where
  | scalar (value : Scalar) (asText : Option String)
  | list (items : List Document)
  | table (entries : List (String × Document))
deriving Repr

namespace Document

instance : Inhabited Document := ⟨.list []⟩

/-- A text. -/
def text (s : String) : Document := .scalar (.text s) (some s)

/-- A scalar that stands where nothing is written. -/
def blank : Document := .scalar .null (some "")

end Document

end LinkSieve
