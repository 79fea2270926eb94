import LinkSieve.Decimal.Reading
import LinkSieve.Document
import LinkSieve.Yaml.Node

/-!
# Reading YAML

The document that a YAML text holds. A plain scalar is of the type that its looks suggest, any
other one is a text unless its tag says otherwise; as a name or where a text is wanted, every
scalar is the text that is written.
-/

namespace LinkSieve.Yaml

/-- Whether a plain text is a way of writing null. -/
def isNull (s : String) : Bool :=
  ["", "~", "null", "Null", "NULL"].contains s

/-- The truth value that a plain text writes. -/
def bool? (s : String) : Option Bool :=
  if ["true", "True", "TRUE"].contains s then some true
  else if ["false", "False", "FALSE"].contains s then some false
  else none

/-- Whether a text looks like a number but, by a superfluous zero, is none. -/
def isZeroPadded (cs : List Char) : Bool :=
  match (Decimal.takeSign cs).2 with
  | '0' :: c :: rest => (c :: rest).all (Decimal.isDigit 10)
  | _ => false

/-- The natural number that digits write, after a mark for their base if there is one. -/
def natural? (cs : List Char) : Option Nat :=
  let marked := match cs with
    | '0' :: 'x' :: rest => Decimal.readNat? 16 rest
    | '0' :: 'o' :: rest => Decimal.readNat? 8 rest
    | '0' :: 'b' :: rest => Decimal.readNat? 2 rest
    | _ => none
  marked <|> (if isZeroPadded cs then none else Decimal.readNat? 10 cs)

/-- The integer that a plain text writes. One of more than 128 bits is none. -/
def integer? (cs : List Char) : Option Int :=
  let (negative, digits) := Decimal.takeSign cs
  match natural? digits with
  | none => none
  | some n =>
    if negative then (if n ≤ 1 <<< 127 then some (-(n : Int)) else none)
    else if n < 1 <<< 128 then some n else none

/-- The number with a fraction that a plain text writes. -/
def float? (cs : List Char) : Option Decimal.Binary64 :=
  let (negative, rest) := Decimal.takeSign cs
  match String.ofList rest with
  | ".inf" | ".Inf" | ".INF" => some (.infinite negative)
  | ".nan" | ".NaN" | ".NAN" => if rest.length = cs.length then some .nan else none
  | _ =>
    match (Decimal.readBinary64? cs).filter fun _ => !isZeroPadded cs with
    | some (.finite negative m) => some (.finite negative m)
    | _ => none

/-- An integer as a scalar; one of more than 64 bits is of no common type. -/
def intScalar (n : Int) : Scalar :=
  if -0x8000_0000_0000_0000 ≤ n && n < 0x1_0000_0000_0000_0000 then .int n else .foreign

/-- The value of a plain scalar without a tag. -/
def plainValue (s : String) : Scalar :=
  if isNull s then .null
  else match bool? s with
    | some b => .bool b
    | none =>
      match integer? s.toList with
      | some n => intScalar n
      | none =>
        match float? s.toList with
        | some x => .float x
        | none => .text s

/-- The value of a scalar. -/
def scalarValue (tag : Option String) (plain : Bool) (s : String) : Scalar :=
  match tag with
  | none | some "!" => if plain then plainValue s else .text s
  | some "tag:yaml.org,2002:bool" => (bool? s).elim .foreign .bool
  | some "tag:yaml.org,2002:int" => (integer? s.toList).elim .foreign intScalar
  | some "tag:yaml.org,2002:float" => (float? s.toList).elim .foreign .float
  | some "tag:yaml.org,2002:null" => if isNull s && s ≠ "" then .null else .foreign
  | some tag => if tag.toList.head? = some '!' then .foreign else .text s

mutual

/-- The document of a node, in which every name has to be a scalar. -/
def Node.document? : Node → Option Document
  | .scalar tag plain text => some (.scalar (scalarValue tag plain text) (some text))
  | .list items => (Node.documents? items).map .list
  | .table entries => (Node.entries? entries).map .table

/-- The documents of the items of a list. -/
def Node.documents? : List Node → Option (List Document)
  | [] => some []
  | node :: rest => do return (← node.document?) :: (← Node.documents? rest)

/-- The documents of the entries of a table. -/
def Node.entries? : List (Node × Node) → Option (List (String × Document))
  | [] => some []
  | (.scalar _ _ name, value) :: rest => do
    return (name, ← value.document?) :: (← Node.entries? rest)
  | _ :: _ => none

end

/-- Reads the text of a document. -/
def read? (content : String) : Option Document :=
  (Node.ofText? content.toList).bind Node.document?

end LinkSieve.Yaml
