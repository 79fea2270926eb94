import LinkSieve.Text.Percent

/-!
# Labels

The text that a link shows to its user may be escaped any number of times over. Decoding it fully
takes one layer off after another, until a round changes nothing.
-/

namespace LinkSieve.Text.Label

/-- One round of decoding: a plus sign is a space, an escape is its byte, and bytes that are no
text become the replacement character. -/
def decodeOnce (cs : List Char) : List Char :=
  let spaced := cs.map fun c => if c = '+' then ' ' else c
  Utf8.decodeLossy (Percent.decode (Utf8.encode spaced))

/-- Rounds of decoding until one changes nothing; the fuel bounds their number. -/
def decodeRounds : Nat → List Char → List Char
  | 0, cs => cs
  | fuel + 1, cs =>
    let next := decodeOnce cs
    if next = cs then cs else decodeRounds fuel next

/-- The text behind all layers of escapes. A round that decodes an escape shortens the text, and
one that only changes plus signs is the last but one, so the fuel suffices. -/
def decode (cs : List Char) : List Char :=
  decodeRounds (cs.length + 2) cs

end LinkSieve.Text.Label
