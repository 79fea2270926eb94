import LinkSieve.Document
import LinkSieve.Json.Reading

/-!
# JSON as documents

A JSON value as a document. Only its texts can stand where a text is wanted.
-/

namespace LinkSieve.Json

/-- A number as a scalar. -/
def Number.scalar : Number → Scalar
  | .int n => .int n
  | .float x => .float x

mutual

/-- The document of a value. -/
def document : Json → Document
  | .null => .scalar .null none
  | .bool b => .scalar (.bool b) none
  | .number n => .scalar n.scalar none
  | .text s => .text s
  | .array items => .list (documents items)
  | .object fields => .table (documentFields fields)

/-- The documents of the items of an array. -/
def documents : List Json → List Document
  | [] => []
  | item :: rest => item.document :: documents rest

/-- The documents of the fields of an object. -/
def documentFields : List (String × Json) → List (String × Document)
  | [] => []
  | (name, value) :: rest => (name, value.document) :: documentFields rest

end

/-- Reads the text of a document. -/
def readDocument? (content : String) : Option Document :=
  (read? content.toList).map document

end LinkSieve.Json
