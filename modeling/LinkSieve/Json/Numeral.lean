import LinkSieve.Decimal.Digits
import LinkSieve.Json.Value

/-!
# Numerals of JSON

The parts of a numeral and the number it denotes. A numeral without fraction and exponent that
fits 64 bits is an integer. Any other is a double-precision number, found from as many leading
digits as fit 64 bits: they are scaled by one power of ten, and a numeral beyond the format is
refused.
-/

namespace LinkSieve.Json

open Decimal (Magnitude Binary64)

/-- A numeral by its parts. -/
structure Numeral where
  negative : Bool
  whole : List Char
  fraction : Option (List Char)
  exponent : Option (Bool × List Char)
deriving DecidableEq, Repr

namespace Numeral

/-- The digits at the start of a text, which have to be there, and the rest. -/
def takeDigits? (cs : List Char) : Option (List Char × List Char) :=
  let digits := cs.takeWhile (Decimal.isDigit 10)
  if digits.isEmpty then none else some (digits, cs.dropWhile (Decimal.isDigit 10))

/-- The exponent after its letter, with its sign. -/
def readExponent? (cs : List Char) : Option (Bool × List Char) :=
  let (negative, digits) := match cs with
    | '-' :: rest => (true, rest)
    | '+' :: rest => (false, rest)
    | rest => (false, rest)
  match takeDigits? digits with
  | some (digits, []) => some (negative, digits)
  | _ => none

/-- Reads a numeral: a sign, digits without a superfluous zero at the front, a fraction and an
exponent, of which only the digits have to be there. -/
def read? (cs : List Char) : Option Numeral := do
  let (negative, cs) := match cs with
    | '-' :: rest => (true, rest)
    | rest => (false, rest)
  let (whole, cs) ← takeDigits? cs
  if whole.head? = some '0' && 1 < whole.length then none
  let (fraction, cs) ← match cs with
    | '.' :: rest => (takeDigits? rest).map fun (digits, rest) => (some digits, rest)
    | rest => some (none, rest)
  match cs with
  | [] => return { negative, whole, fraction, exponent := none }
  | 'e' :: rest | 'E' :: rest =>
    return { negative, whole, fraction, exponent := some (← readExponent? rest) }
  | _ => none

/-- Digits taken into a number as long as it stays below `2 ^ 64`, and those left over. -/
def gather (n : Nat) : List Char → Nat × List Char
  | [] => (n, [])
  | c :: rest =>
    let next := n * 10 + (Decimal.digit? 10 c).getD 0
    if next < 0x1_0000_0000_0000_0000 then gather next rest else (n, c :: rest)

/-- The leading digits of a numeral as a number, and the power of ten that scales it. -/
def significand (x : Numeral) : Nat × Int :=
  let (n, dropped) := gather 0 x.whole
  let fraction := x.fraction.getD []
  let (n, rest) := gather n fraction
  (n, (dropped.length : Int) - (fraction.length - rest.length : Nat))

/-- The power of ten, as near as the format comes to it. -/
def powerOfTen? (n : Nat) : Option Magnitude := Magnitude.ofNat? (Nat.pow 10 n)

/-- A magnitude times a power of ten, rounded after the scaling; a negative power beyond the
format is applied in steps, of which the fuel bounds the number. -/
def scale? : Nat → Magnitude → Int → Option Magnitude
  | 0, _, _ => some .zero
  | fuel + 1, m, exponent =>
    if exponent.natAbs ≤ 308 then do
      let power ← powerOfTen? exponent.natAbs
      if 0 ≤ exponent then m.mul? power else m.div? power
    else if m.mantissa = 0 then some m
    else if 0 ≤ exponent then none
    else do
      let power ← powerOfTen? 308
      let next ← m.div? power
      scale? fuel next (exponent + 308)

/-- The magnitude that a numeral with a fraction or an exponent denotes, unless the format does
not reach that far. -/
def magnitude? (x : Numeral) : Option Magnitude :=
  let (n, scale) := x.significand
  let (negative, digits) := x.exponent.getD (false, [])
  let exponent : Int := Decimal.ofDigits 10 digits
  if exponent < 0x8000_0000 then do
    let m ← Magnitude.ofNat? n
    scale? 8 m (if negative then scale - exponent else scale + exponent)
  else if n ≠ 0 && !negative then none
  else some .zero

/-- The integer that a numeral without fraction and exponent denotes, if it has 64 bits. A
negative zero is no integer. -/
def integer? (x : Numeral) : Option Int :=
  let n := Decimal.ofDigits 10 x.whole
  if x.fraction.isSome || x.exponent.isSome then none
  else if x.negative then (if 0 < n && n ≤ 0x8000_0000_0000_0000 then some (-(n : Int)) else none)
  else if n < 0x1_0000_0000_0000_0000 then some n else none

/-- The number that a numeral denotes. -/
def number? (x : Numeral) : Option Number :=
  match x.integer? with
  | some n => some (.int n)
  | none => x.magnitude?.map fun m => .float (.finite x.negative m)

end Numeral

end LinkSieve.Json
