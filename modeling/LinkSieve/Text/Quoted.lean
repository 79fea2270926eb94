import LinkSieve.Text.HiddenTable
import LinkSieve.Text.Lowercase

/-!
# Quoted text

A text in double quotes, written so that every character of it can be told apart: a quote and a
backslash follow a backslash, the common control characters have a letter, and a character that
does not show is given by its code point.
-/

namespace LinkSieve.Text

/-- Whether a character leaves a glyph of its own on a line. -/
def isVisible (c : Char) : Bool :=
  if c.toNat < 0x7F then 0x20 ≤ c.toNat else !inRanges HiddenTable.ranges c

namespace Quoted

/-- A character given by its code point, in lower-case hexadecimal digits between braces. -/
def codePoint (c : Char) : List Char :=
  '\\' :: 'u' :: '\x7b' :: (Nat.toDigits 16 c.toNat ++ ['\x7d'])

/-- A character as it stands within the quotes; `marks` are those that follow a backslash. -/
def encodeChar (marks : List Char) (c : Char) : List Char :=
  if c = '\x00' then ['\\', '0']
  else if c = '\t' then ['\\', 't']
  else if c = '\n' then ['\\', 'n']
  else if c = '\r' then ['\\', 'r']
  else if marks.contains c then ['\\', c]
  else if isVisible c then [c]
  else codePoint c

/-- A text between double quotes. -/
def encode (marks cs : List Char) : List Char :=
  '"' :: (cs.flatMap (encodeChar marks) ++ ['"'])

end Quoted

/-- A value in quotes. -/
def quoted (s : String) : String :=
  String.ofList (Quoted.encode ['"', '\\'] s.toList)

/-- A file path in quotes; a single quote follows a backslash too. -/
def quotedPath (path : String) : String :=
  String.ofList (Quoted.encode ['"', '\\', '\x27'] path.toList)

/-- A list of values, each in quotes. -/
def quotedList (values : List String) : String :=
  "[" ++ String.intercalate ", " (values.map quoted) ++ "]"

end LinkSieve.Text
