import LinkSieve.Json.Numeral

/-!
# Tokens of JSON

A JSON text as brackets, separators and single values. The text is read one character at a time;
a state says what the characters read so far have begun.
-/

namespace LinkSieve.Json

/-- A bracket, a separator, or a value that holds no other. -/
inductive Token where
  | openArray
  | closeArray
  | openObject
  | closeObject
  | colon
  | comma
  | atom (value : Json)
deriving Repr

namespace Token

/-- What the characters read so far have begun. Text read is kept in reverse. -/
inductive State where
  | between
  | word (read : List Char)
  | string (read : List Char)
  | escape (read : List Char)
  | unit (high : Option Nat) (digits : Nat) (value : Nat) (read : List Char)
  | lowEscape (high : Nat) (read : List Char)
  | lowUnit (high : Nat) (read : List Char)
deriving Repr

/-- Whether a character separates tokens and means nothing else. -/
def isSpace (c : Char) : Bool :=
  c = ' ' || c = '\t' || c = '\n' || c = '\r'

/-- The token that a character is by itself. -/
def single? (c : Char) : Option Token :=
  if c = '[' then some .openArray
  else if c = ']' then some .closeArray
  else if c = '\x7b' then some .openObject
  else if c = '\x7d' then some .closeObject
  else if c = ':' then some .colon
  else if c = ',' then some .comma
  else none

/-- Whether a character is part of a literal name or a numeral. -/
def isWordChar (c : Char) : Bool :=
  c.isAlphanum || c = '-' || c = '+' || c = '.'

/-- The value that a word stands for. -/
def word? (cs : List Char) : Option Json :=
  match String.ofList cs with
  | "null" => some .null
  | "true" => some (.bool true)
  | "false" => some (.bool false)
  | _ => ((Numeral.read? cs).bind Numeral.number?).map .number

/-- What a character says where a token may start. -/
def start (c : Char) : Option (List Token × State) :=
  if isSpace c then some ([], .between)
  else if c = '"' then some ([], .string [])
  else if isWordChar c then some ([], .word [c])
  else (single? c).map fun t => ([t], .between)

/-- The character that a letter after a backslash stands for. -/
def escaped? (c : Char) : Option Char :=
  match c with
  | '"' => some '"'
  | '\\' => some '\\'
  | '/' => some '/'
  | 'b' => some '\x08'
  | 'f' => some '\x0c'
  | 'n' => some '\n'
  | 'r' => some '\r'
  | 't' => some '\t'
  | _ => none

/-- The state after the four digits of a code unit. The first half of a pair has to be followed by
the second. -/
def closeUnit (high : Option Nat) (value : Nat) (read : List Char) : Option State :=
  match high with
  | some h =>
    if 0xDC00 ≤ value && value < 0xE000 then
      some (.string (Char.ofNat (0x10000 + (h - 0xD800) * 0x400 + (value - 0xDC00)) :: read))
    else none
  | none =>
    if 0xD800 ≤ value && value < 0xDC00 then some (.lowEscape value read)
    else if 0xDC00 ≤ value && value < 0xE000 then none
    else some (.string (Char.ofNat value :: read))

/-- One character of a text: the tokens it completes, and the state after it. -/
def step (state : State) (c : Char) : Option (List Token × State) :=
  match state with
  | .between => start c
  | .word read =>
    if isWordChar c then some ([], .word (c :: read))
    else do
      let value ← word? read.reverse
      let (tokens, next) ← start c
      return (.atom value :: tokens, next)
  | .string read =>
    if c = '"' then some ([.atom (.text (String.ofList read.reverse))], .between)
    else if c = '\\' then some ([], .escape read)
    else if c.toNat < 0x20 then none
    else some ([], .string (c :: read))
  | .escape read =>
    if c = 'u' then some ([], .unit none 0 0 read)
    else (escaped? c).map fun e => ([], .string (e :: read))
  | .unit high digits value read => do
    let d ← Decimal.hexDigit? c
    if digits < 3 then return ([], .unit high (digits + 1) (value * 16 + d) read)
    else return ([], ← closeUnit high (value * 16 + d) read)
  | .lowEscape high read => if c = '\\' then some ([], .lowUnit high read) else none
  | .lowUnit high read => if c = 'u' then some ([], .unit (some high) 0 0 read) else none

/-- The tokens of a text that is read from a given state. -/
def scanFrom : State → List Char → Option (List Token)
  | .between, [] => some []
  | .word read, [] => (word? read.reverse).map fun value => [.atom value]
  | _, [] => none
  | state, c :: rest => do
    let (tokens, next) ← step state c
    return tokens ++ (← scanFrom next rest)

/-- The tokens of a text. -/
def scan (cs : List Char) : Option (List Token) :=
  scanFrom .between cs

end Token

end LinkSieve.Json
