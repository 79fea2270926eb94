/-!
# Double-precision numbers

The numbers of the 64-bit binary format as exact values: a mantissa of at most 53 bits times a
power of two. Every result is the exact one rounded to the nearest such number, a tie going to
the even mantissa.

## Implementation notes

All arithmetic is on natural numbers. A finite number is a sign and a magnitude; a magnitude that
would exceed the format is `none`, and each caller says what that means to it.
-/

namespace LinkSieve.Decimal

/-- A finite number without its sign: `mantissa * 2 ^ exponent`. -/
structure Magnitude where
  mantissa : Nat
  exponent : Int
deriving DecidableEq, Repr

namespace Magnitude

/-- Zero. -/
def zero : Magnitude := ⟨0, -1074⟩

/-- The numerator of a magnitude as a ratio. -/
def num (a : Magnitude) : Nat := a.mantissa <<< a.exponent.toNat

/-- The denominator of a magnitude as a ratio. -/
def den (a : Magnitude) : Nat := 1 <<< (-a.exponent).toNat

/-- A quotient rounded to the nearest integer, a tie going to the even one. -/
def roundQuotient (num den : Nat) : Nat :=
  let q := num / den
  let twice := 2 * (num % den)
  if twice < den then q
  else if den < twice then q + 1
  else if q % 2 = 0 then q else q + 1

/-- A ratio in units of `2 ^ exponent`, as a ratio again. -/
def scaled (num den : Nat) (exponent : Int) : Nat × Nat :=
  (num <<< (-exponent).toNat, den <<< exponent.toNat)

/-- The magnitude nearest to a ratio, if the format reaches that far. -/
def ofRatio? (num den : Nat) : Option Magnitude :=
  if num = 0 then some zero
  else
    let guess : Int := max ((Nat.log2 num : Int) - Nat.log2 den - 53) (-1074)
    let (n, d) := scaled num den guess
    let exponent := if n < d <<< 53 then guess else guess + 1
    let (n, d) := scaled num den exponent
    let m := roundQuotient n d
    let result : Magnitude := if m = 1 <<< 53 then ⟨1 <<< 52, exponent + 1⟩ else ⟨m, exponent⟩
    if result.exponent ≤ 971 then some result else none

/-- The magnitude nearest to a natural number. -/
def ofNat? (n : Nat) : Option Magnitude := ofRatio? n 1

/-- The product, rounded. -/
def mul? (a b : Magnitude) : Option Magnitude :=
  ofRatio? (a.num * b.num) (a.den * b.den)

/-- The quotient, rounded. -/
def div? (a b : Magnitude) : Option Magnitude :=
  ofRatio? (a.num * b.den) (a.den * b.num)

/-- The magnitude nearest to `digits * 10 ^ exponent`. Beyond the ends of the format no power is
computed: the result is known from the number of digits. -/
def ofDecimal? (digits : Nat) (exponent : Int) : Option Magnitude :=
  if digits = 0 then some zero
  else
    let places : Int := (Nat.toDigits 10 digits).length
    if 310 < exponent + places then none
    else if exponent + places < -330 then some zero
    else ofRatio? (digits * Nat.pow 10 exponent.toNat) (Nat.pow 10 (-exponent).toNat)

/-- The natural number that a magnitude is, if it is one. -/
def toNat? (a : Magnitude) : Option Nat :=
  if a.num % a.den = 0 then some (a.num / a.den) else none

end Magnitude

/-- A number of the 64-bit binary format. -/
inductive Binary64 where
  | nan
  | infinite (negative : Bool)
  | finite (negative : Bool) (magnitude : Magnitude)
deriving DecidableEq, Repr

namespace Binary64

/-- A number from its sign and its magnitude; a magnitude beyond the format is infinite. -/
def ofMagnitude? (negative : Bool) : Option Magnitude → Binary64
  | some m => .finite negative m
  | none => .infinite negative

/-- The integer that a number is, if it is finite and has no fraction. -/
def toInt? : Binary64 → Option Int
  | .finite negative m => m.toNat?.map fun n => if negative then -(n : Int) else n
  | _ => none

end Binary64

end LinkSieve.Decimal
