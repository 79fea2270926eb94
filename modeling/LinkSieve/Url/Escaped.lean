import LinkSieve.Text.Percent

/-!
# Escape sets of the parts of a URL

Which characters each part of a URL writes as percent escapes. Every part escapes control
characters and everything beyond ASCII; each set below adds the characters that would end the
part or be misread in it.
-/

namespace LinkSieve.Url.Escaped

/-- Escaped wherever it stands. -/
def always (c : Char) : Bool :=
  c.toNat < 0x20 || 0x7F ≤ c.toNat

/-- Escaped in a fragment. -/
def inFragment (c : Char) : Bool :=
  always c || c = ' ' || c = '"' || c = '<' || c = '>' || c.toNat = 0x60

/-- Escaped in a path. -/
def inPath (c : Char) : Bool :=
  inFragment c || c = '#' || c = '?' || c.toNat = 0x7B || c.toNat = 0x7D

/-- Escaped in a user name or a password. -/
def inUserinfo (c : Char) : Bool :=
  inPath c || c = '/' || c = ':' || c = ';' || c = '=' || c = '@' || c = '[' || c = '\\' ||
    c = ']' || c = '^' || c = '|'

/-- Escaped in a query; a web scheme escapes the apostrophe too. -/
def inQuery (web : Bool) (c : Char) : Bool :=
  always c || c = ' ' || c = '"' || c = '#' || c = '<' || c = '>' || (web && c.toNat = 0x27)

end LinkSieve.Url.Escaped
