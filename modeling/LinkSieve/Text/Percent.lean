import LinkSieve.Text.Utf8

/-!
# Percent escapes

A percent sign and two hexadecimal digits stand for a byte. Decoding leaves every other byte as
it is, a stray percent sign included; encoding escapes the bytes of the characters of a set.
-/

namespace LinkSieve.Text.Percent

/-- The value of a hexadecimal digit, of either case, given by its ASCII code. -/
def hexValue? (b : UInt8) : Option UInt8 :=
  if 0x30 ≤ b && b ≤ 0x39 then some (b - 0x30)
  else if 0x41 ≤ b && b ≤ 0x46 then some (b - 0x41 + 10)
  else if 0x61 ≤ b && b ≤ 0x66 then some (b - 0x61 + 10)
  else none

/-- The byte that two hexadecimal digits stand for. -/
def hexPair? (a b : UInt8) : Option UInt8 := do
  let high ← hexValue? a
  let low ← hexValue? b
  return high * 16 + low

/-- Replaces each escape by its byte. -/
def decode : List UInt8 → List UInt8
  | 0x25 :: a :: b :: rest =>
    match hexPair? a b with
    | some byte => byte :: decode rest
    | none => 0x25 :: decode (a :: b :: rest)
  | b :: rest => b :: decode rest
  | [] => []

/-- The upper-case hexadecimal digit of a number below sixteen. -/
def hexDigit (n : Nat) : Char :=
  if n < 10 then Char.ofNat (0x30 + n) else Char.ofNat (0x41 + (n - 10))

/-- The escape of a byte. -/
def escape (b : UInt8) : List Char :=
  ['%', hexDigit (b.toNat / 16), hexDigit (b.toNat % 16)]

/-- The characters of a text as they stand where `escaped` does not hold, and as the escapes of
their UTF-8 bytes where it does. -/
def encode (escaped : Char → Bool) (cs : List Char) : List Char :=
  cs.flatMap fun c => if escaped c then (String.utf8EncodeChar c).flatMap escape else [c]

end LinkSieve.Text.Percent
