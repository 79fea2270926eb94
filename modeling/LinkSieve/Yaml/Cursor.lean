/-!
# Places in a YAML text

A place is what is left of the text with its line and column, which YAML gives meaning to. Here
are the classes of characters that matter everywhere and the steps that keep count.
-/

namespace LinkSieve.Yaml

/-- What is left of a text, with the number of characters before it, its line and its column. -/
structure Cursor where
  rest : List Char
  index : Nat := 0
  line : Nat := 0
  column : Nat := 0
deriving Repr

/-- Whether a character may stand in a YAML text. -/
def isAllowed (c : Char) : Bool :=
  let n := c.toNat
  n = 0x09 || n = 0x0A || n = 0x0D || (0x20 ≤ n && n ≤ 0x7E) || n = 0x85 ||
  (0xA0 ≤ n && n ≤ 0xFFFD) || 0x10000 ≤ n

/-- Whether a character ends a line. -/
def isBreak (c : Char) : Bool :=
  c = '\n' || c = '\r' || c.toNat = 0x85 || c.toNat = 0x2028 || c.toNat = 0x2029

/-- Whether a character separates words on a line. -/
def isGap (c : Char) : Bool :=
  c = ' ' || c = '\t'

/-- Whether a character may stand in a name. -/
def isNameChar (c : Char) : Bool :=
  c.isAlphanum || c = '_' || c = '-'

namespace Cursor

/-- The character at a distance. -/
def at? (c : Cursor) (n : Nat) : Option Char := c.rest[n]?

/-- Whether a given character is next. -/
def sees (c : Cursor) (char : Char) : Bool := c.rest.head? = some char

/-- Whether the character at a distance is one of a class. -/
def has (c : Cursor) (p : Char → Bool) (n : Nat) : Bool := (c.at? n).any p

/-- Whether the text ends, a line ends or words are separated at a distance. -/
def endsWord (c : Cursor) (n : Nat) : Bool := (c.at? n).all fun x => isGap x || isBreak x

/-- Whether the text or a line ends here. -/
def endsLine (c : Cursor) : Bool := c.rest.head?.all isBreak

/-- The place a number of characters on, on the same line. -/
def skip (c : Cursor) (n : Nat) : Cursor :=
  ⟨c.rest.drop n, c.index + n, c.line, c.column + n⟩

/-- The place after a line break, with the break as it counts: all but two kinds are a line
feed. -/
def readBreak (c : Cursor) : List Char × Cursor :=
  match c.rest with
  | '\r' :: '\n' :: rest => (['\n'], ⟨rest, c.index + 2, c.line + 1, 0⟩)
  | x :: rest =>
    if x.toNat = 0x2028 || x.toNat = 0x2029 then ([x], ⟨rest, c.index + 1, c.line + 1, 0⟩)
    else if isBreak x then (['\n'], ⟨rest, c.index + 1, c.line + 1, 0⟩)
    else ([], c)
  | [] => ([], c)

/-- The characters of a class that come next, and the place after them. -/
def takeWhile (c : Cursor) (p : Char → Bool) : List Char × Cursor :=
  let taken := c.rest.takeWhile p
  (taken, c.skip taken.length)

/-- The place after the characters of a class that come next. -/
def skipWhile (c : Cursor) (p : Char → Bool) : Cursor := (c.takeWhile p).2

/-- Whether a mark of three equal characters, as it stands between documents, is here. -/
def atMark (c : Cursor) (char : Char) : Bool :=
  c.column = 0 && c.rest.take 3 = [char, char, char] && c.endsWord 3

/-- Whether a mark between documents is here. -/
def atAnyMark (c : Cursor) : Bool := c.atMark '-' || c.atMark '.'

end Cursor

end LinkSieve.Yaml
