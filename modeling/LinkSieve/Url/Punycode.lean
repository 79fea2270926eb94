import LinkSieve.Text.Lowercase
import LinkSieve.Text.Quoted

/-!
# Encoded labels

A label of a domain name in another script is written in ASCII: its ASCII characters, a hyphen,
and digits of base 36 that say which further characters stand where. The digits of one number
end where a threshold is met; the threshold adapts to the numbers read.
-/

namespace LinkSieve.Url.Punycode

/-- The value of a digit of base 36, the letters coming first. -/
def digit? (c : Char) : Option Nat :=
  if 'a' ≤ c && c ≤ 'z' then some (c.toNat - 97)
  else if '0' ≤ c && c ≤ '9' then some (c.toNat - 48 + 26)
  else none

/-- The threshold at a place of a number. -/
def threshold (place bias : Nat) : Nat :=
  if place ≤ bias then 1 else if bias + 26 ≤ place then 26 else place - bias

/-- Divides a distance by 35 until it is at most 455; gives it with 36 for each division. The fuel
bounds the divisions. -/
def scale : Nat → Nat → Nat → Nat × Nat
  | 0, delta, k => (delta, k)
  | fuel + 1, delta, k => if 455 < delta then scale fuel (delta / 35) (k + 36) else (delta, k)

/-- The bias after a number has been read. -/
def adapt (delta count : Nat) (first : Bool) : Nat :=
  let delta := if first then delta / 700 else delta / 2
  let (delta, k) := scale 64 (delta + delta / count) 0
  k + 36 * delta / (delta + 38)

/-- Where a reader of the digits stands: the characters so far, the last code point and position,
the bias, and the number under way with its place and weight. -/
structure State where
  chars : List Char
  code : Nat := 128
  position : Nat := 0
  bias : Nat := 72
  value : Nat := 0
  place : Nat := 36
  weight : Nat := 1

/-- A state after one more digit. -/
def State.step? (s : State) (c : Char) : Option State := do
  let d ← digit? c
  let value := s.value + d * s.weight
  let t := threshold s.place s.bias
  if 0x1_0000_0000 ≤ value then none
  else if t ≤ d then
    return { s with value := value, place := s.place + 36, weight := s.weight * (36 - t) }
  else
    let count := s.chars.length + 1
    let total := s.position + value
    let code := s.code + total / count
    let position := total % count
    if code.isValidChar then
      let char := Char.ofNat code
      return { chars := s.chars.take position ++ char :: s.chars.drop position, code,
               position := position + 1, bias := adapt value count (s.position = 0) }
    else none

/-- The characters that an encoded label stands for. -/
def decode? (cs : List Char) : Option (List Char) := do
  let reversed := cs.reverse
  let digits := (reversed.takeWhile (· ≠ '-')).reverse
  let ascii := ((reversed.dropWhile (· ≠ '-')).drop 1).reverse
  let s ← digits.foldlM State.step? { chars := ascii }
  if s.weight = 1 then return s.chars else none

/-- Whether a lower-cased text is the encoded form of a label: one that holds a character beyond
ASCII, and no upper-case or unseen one. -/
def isEncoded (cs : List Char) : Bool :=
  match decode? cs with
  | some chars =>
    chars.any (0x80 ≤ ·.toNat) && chars.all fun c => Text.isVisible c && Text.lowerChar c = [c]
  | none => false

end LinkSieve.Url.Punycode
