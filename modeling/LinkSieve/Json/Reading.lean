import LinkSieve.Json.Token

/-!
# Reading JSON

A value is put together from tokens by a machine that keeps the open arrays and objects on a
stack. At most 127 of them may be open at once.
-/

namespace LinkSieve.Json

/-- An open array or object with what it holds so far, in reverse. An object also has the name of
the field that is being read. -/
inductive Frame where
  | array (items : List Json)
  | object (fields : List (String × Json)) (name : String)
deriving Repr

/-- What has to come next. -/
inductive Mode where
  /-- A value. -/
  | value
  /-- A value, or the end of an array that is still empty. -/
  | firstItem
  /-- A name of a field. -/
  | name
  /-- A name of a field, or the end of an object that is still empty. -/
  | firstName
  /-- The colon after a name. -/
  | colon
  /-- A comma or the end of what is open. -/
  | separator
  /-- Nothing: the whole value is read. -/
  | done (value : Json)
deriving Repr

/-- The open arrays and objects, the innermost first, and what has to come next. -/
structure Machine where
  stack : List Frame
  mode : Mode
deriving Repr

namespace Machine

/-- The machine before the first token. -/
def start : Machine := ⟨[], .value⟩

/-- The machine after a complete value. -/
def put (stack : List Frame) (value : Json) : Machine :=
  match stack with
  | [] => ⟨[], .done value⟩
  | .array items :: rest => ⟨.array (value :: items) :: rest, .separator⟩
  | .object fields name :: rest => ⟨.object ((name, value) :: fields) name :: rest, .separator⟩

/-- The greatest number of arrays and objects that may be open. -/
def depth : Nat := 127

/-- The machine after a token that starts a value. -/
def open? (stack : List Frame) : Token → Option Machine
  | .atom value => some (put stack value)
  | .openArray => if stack.length < depth then some ⟨.array [] :: stack, .firstItem⟩ else none
  | .openObject => if stack.length < depth then some ⟨.object [] "" :: stack, .firstName⟩ else none
  | _ => none

/-- The machine after one more token. -/
def step? (m : Machine) (t : Token) : Option Machine :=
  match m.mode, m.stack, t with
  | .value, stack, t => open? stack t
  | .firstItem, .array _ :: rest, .closeArray => some (put rest (.array []))
  | .firstItem, stack, t => open? stack t
  | .firstName, .object _ _ :: rest, .closeObject => some (put rest (.object []))
  | .firstName, .object fields _ :: rest, .atom (.text name) =>
    some ⟨.object fields name :: rest, .colon⟩
  | .name, .object fields _ :: rest, .atom (.text name) =>
    some ⟨.object fields name :: rest, .colon⟩
  | .colon, stack, .colon => some ⟨stack, .value⟩
  | .separator, .array items :: rest, .comma => some ⟨.array items :: rest, .value⟩
  | .separator, .object fields name :: rest, .comma => some ⟨.object fields name :: rest, .name⟩
  | .separator, .array items :: rest, .closeArray => some (put rest (.array items.reverse))
  | .separator, .object fields _ :: rest, .closeObject =>
    some (put rest (.object fields.reverse))
  | _, _, _ => none

/-- The value that has been read, if it is complete. -/
def result? (m : Machine) : Option Json :=
  match m.mode with
  | .done value => some value
  | _ => none

end Machine

/-- The value that a list of tokens writes. -/
def ofTokens? (tokens : List Token) : Option Json :=
  (tokens.foldlM Machine.step? Machine.start).bind Machine.result?

/-- Reads the text of a value. -/
def read? (cs : List Char) : Option Json :=
  (Token.scan cs).bind ofTokens?

end LinkSieve.Json
