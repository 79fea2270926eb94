import LinkSieve.Decimal.Binary64

/-!
# Shortest decimal text

The decimal with the fewest digits among those that round to a given number, and of these the
nearest to it, with its text in positional notation. Which of two equally near ones is taken is up
to the format that writes it.

## Implementation notes

A decimal grid of `n` digits has a point in the interval that rounds to the number if and only if
one of the number's two neighbours on that grid lies in it, so only those two are tried.
-/

namespace LinkSieve.Decimal

/-- The decimal `digits * 10 ^ exponent`. -/
structure Scaled where
  digits : Nat
  exponent : Int
deriving DecidableEq, Repr

namespace Scaled

/-- The same decimal without trailing zeros; the fuel bounds how many are dropped. -/
def strip : Nat → Scaled → Scaled
  | 0, d => d
  | fuel + 1, d =>
    if d.digits ≠ 0 && d.digits % 10 = 0 then strip fuel ⟨d.digits / 10, d.exponent + 1⟩ else d

/-- The digits of a decimal as characters. -/
def digitChars (d : Scaled) : List Char := Nat.toDigits 10 d.digits

/-- Positional notation, with a point only where there is a fraction. -/
def positional (d : Scaled) : List Char :=
  let ds := d.digitChars
  if 0 ≤ d.exponent then ds ++ List.replicate d.exponent.toNat '0'
  else
    let places := (-d.exponent).toNat
    if places < ds.length then
      ds.take (ds.length - places) ++ '.' :: ds.drop (ds.length - places)
    else '0' :: '.' :: (List.replicate (places - ds.length) '0' ++ ds)

end Scaled

/-- Which of two equally near decimals is taken. -/
inductive TieRule where
  | upper
  | even
deriving DecidableEq, Repr

/-- Whether the lower of two neighbours `q` and `q + 1` is taken for `q + part / whole`. -/
def TieRule.takesLower (rule : TieRule) (q part whole : Nat) : Bool :=
  2 * part < whole || (2 * part = whole && rule = .even && q % 2 = 0)

namespace Magnitude

/-- The number `p` with `10 ^ (p - 1) ≤ num / den < 10 ^ p`. -/
def decimalPlaces (num den : Nat) : Int :=
  if den ≤ num then (Nat.toDigits 10 (num / den)).length
  else 1 - ((Nat.toDigits 10 ((den + num - 1) / num - 1)).length : Int)

/-- The interval that rounds to a magnitude, in quarters of its last bit: how far it reaches below
and above. Below a power of two the neighbours lie twice as close. -/
def reach (a : Magnitude) : Nat × Nat :=
  (if a.mantissa = 1 <<< 52 ∧ -1074 < a.exponent then 1 else 2, 2)

/-- Whether `digits * 10 ^ exponent` rounds to a magnitude. -/
def holds (a : Magnitude) (d : Scaled) : Bool :=
  let left := d.digits * Nat.pow 10 d.exponent.toNat * a.den * 4
  let unit := Nat.pow 10 (-d.exponent).toNat <<< a.exponent.toNat
  let low := (4 * a.mantissa - a.reach.1) * unit
  let high := (4 * a.mantissa + a.reach.2) * unit
  if a.mantissa % 2 = 0 then low ≤ left && left ≤ high else low < left && left < high

/-- The point of the grid of `10 ^ exponent` that rounds to a magnitude and is nearest to it. -/
def onGrid? (a : Magnitude) (rule : TieRule) (exponent : Int) : Option Scaled :=
  let num := a.num * Nat.pow 10 (-exponent).toNat
  let den := a.den * Nat.pow 10 exponent.toNat
  let below : Scaled := ⟨num / den, exponent⟩
  let above : Scaled := ⟨num / den + 1, exponent⟩
  let lower := rule.takesLower (num / den) (num % den) den
  let nearer := if lower then below else above
  let farther := if lower then above else below
  if a.holds nearer then some nearer else if a.holds farther then some farther else none

/-- The shortest decimal of a magnitude. Seventeen digits always suffice. -/
def shortest (a : Magnitude) (rule : TieRule) : Scaled :=
  if a.mantissa = 0 then ⟨0, 0⟩
  else
    let places := decimalPlaces a.num a.den
    match (List.range 17).findSome? fun (n : Nat) => a.onGrid? rule (places - (n + 1 : Nat)) with
    | some d => d.strip 20
    | none => ⟨0, 0⟩

end Magnitude

/-- The plain text of a number: its shortest decimal in positional notation, whatever its size. Of
two equally near ones it is the upper one. -/
def Binary64.plainText : Binary64 → String
  | .nan => "NaN"
  | .infinite negative => if negative then "-inf" else "inf"
  | .finite negative m =>
    let text := String.ofList (m.shortest .upper).positional
    if negative then "-" ++ text else text

end LinkSieve.Decimal
