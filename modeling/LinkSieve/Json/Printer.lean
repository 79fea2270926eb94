import LinkSieve.Json.Value

/-!
# Writing JSON

The compact text of a value. A double-precision number is written with its shortest digits, of two
equally near texts the one whose last digit is even; positionally from a hundred-thousandth up to
sixteen places and with a signed exponent beyond, and always so that it does not look like an
integer.
-/

namespace LinkSieve.Json

open Decimal (Binary64 Magnitude Scaled)

namespace Number

/-- An exponent with its sign. -/
def exponentText (e : Int) : List Char :=
  (if 0 ≤ e then ['+'] else []) ++ (toString e).toList

/-- The text of a decimal that is no integer by its looks. -/
def decimalText (d : Scaled) : List Char :=
  let digits := d.digitChars
  let point : Int := digits.length + d.exponent
  if 0 ≤ d.exponent && point ≤ 16 then d.positional ++ ".0".toList
  else if -5 < point && point ≤ 16 then d.positional
  else
    let fraction := match digits with
      | [_] => digits
      | first :: rest => first :: '.' :: rest
      | [] => []
    fraction ++ 'e' :: exponentText (point - 1)

/-- The text of a number; one that is not finite has none and is written as null. -/
def text : Number → List Char
  | .int n => (toString n).toList
  | .float (.finite negative m) =>
    (if negative then ['-'] else []) ++ decimalText (m.shortest .even)
  | .float _ => "null".toList

end Number

/-- A character as it stands within the quotes of a text. -/
def escapeChar (c : Char) : List Char :=
  if c = '"' then ['\\', '"']
  else if c = '\\' then ['\\', '\\']
  else if c = '\x08' then ['\\', 'b']
  else if c = '\x0c' then ['\\', 'f']
  else if c = '\n' then ['\\', 'n']
  else if c = '\r' then ['\\', 'r']
  else if c = '\t' then ['\\', 't']
  else if c.toNat < 0x20 then
    "\\u00".toList ++ [Nat.digitChar (c.toNat / 16), Nat.digitChar (c.toNat % 16)]
  else [c]

/-- A text in quotes. -/
def quote (s : String) : List Char :=
  '"' :: (s.toList.flatMap escapeChar ++ ['"'])

mutual

/-- The compact text of a value. -/
def write : Json → List Char
  | .null => "null".toList
  | .bool b => (if b then "true" else "false").toList
  | .number n => n.text
  | .text s => quote s
  | .array items => '[' :: (writeItems items ++ [']'])
  | .object fields => '\x7b' :: (writeFields fields ++ ['\x7d'])

/-- The items of an array with commas between them. -/
def writeItems : List Json → List Char
  | [] => []
  | [item] => item.write
  | item :: rest => item.write ++ ',' :: writeItems rest

/-- The fields of an object with commas between them. -/
def writeFields : List (String × Json) → List Char
  | [] => []
  | [(name, value)] => quote name ++ ':' :: value.write
  | (name, value) :: rest => quote name ++ ':' :: (value.write ++ ',' :: writeFields rest)

end

end LinkSieve.Json
