import LinkSieve.Decimal.Digits

/-!
# IPv4 addresses

An address of four numbers, and its one exact text: four decimal numbers up to 255 with points
between them and no superfluous zeros.
-/

namespace LinkSieve.Address

/-- An IPv4 address. -/
structure Ipv4 where
  a : UInt8
  b : UInt8
  c : UInt8
  d : UInt8
deriving DecidableEq, Repr

namespace Ipv4

/-- One of the four numbers: one to three digits that do not start with a zero, unless it is zero
itself. -/
def readPart? (cs : List Char) : Option UInt8 :=
  if 3 < cs.length || (cs.head? = some '0' && 1 < cs.length) then none
  else match Decimal.readNat? 10 cs with
    | some n => if n < 256 then some (UInt8.ofNat n) else none
    | none => none

/-- Reads the exact text of an address. -/
def read? (cs : List Char) : Option Ipv4 :=
  match (cs.splitOn '.').mapM readPart? with
  | some [a, b, c, d] => some ⟨a, b, c, d⟩
  | _ => none

/-- The text of an address. -/
def text (ip : Ipv4) : List Char :=
  List.intercalate ['.'] ([ip.a, ip.b, ip.c, ip.d].map fun n => Decimal.natText n.toNat)

/-- The address whose four numbers are the bytes of a number below `2 ^ 32`. -/
def ofNat (n : Nat) : Ipv4 :=
  ⟨UInt8.ofNat (n >>> 24), UInt8.ofNat (n >>> 16), UInt8.ofNat (n >>> 8), UInt8.ofNat n⟩

end Ipv4

end LinkSieve.Address
