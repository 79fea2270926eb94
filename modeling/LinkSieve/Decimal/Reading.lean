import LinkSieve.Decimal.Binary64
import LinkSieve.Decimal.Digits

/-!
# Reading decimal numbers

A decimal text as the double-precision number nearest to it. A fraction may lack its digits on
one side of the point; the words for infinity and for no number are understood in either case.
-/

namespace LinkSieve.Decimal

/-- The sign of a text, and the rest of it. -/
def takeSign (cs : List Char) : Bool × List Char :=
  match cs with
  | '-' :: rest => (true, rest)
  | '+' :: rest => (false, rest)
  | rest => (false, rest)

/-- An exponent with its letter, if anything stands there. -/
def readExponent? (cs : List Char) : Option Int :=
  match cs with
  | [] => some 0
  | c :: rest =>
    if c = 'e' || c = 'E' then
      let (negative, digits) := takeSign rest
      (readNat? 10 digits).map fun n => if negative then -(n : Int) else n
    else none

/-- Reads digits with a point and an exponent, without a sign. -/
def readMagnitude? (cs : List Char) : Option (Option Magnitude) :=
  let whole := cs.takeWhile (isDigit 10)
  let (fraction, after) := match cs.dropWhile (isDigit 10) with
    | '.' :: rest => (rest.takeWhile (isDigit 10), rest.dropWhile (isDigit 10))
    | rest => ([], rest)
  if whole.isEmpty && fraction.isEmpty then none
  else (readExponent? after).map fun exponent =>
    Magnitude.ofDecimal? (ofDigits 10 (whole ++ fraction)) (exponent - fraction.length)

/-- Reads a number. -/
def readBinary64? (cs : List Char) : Option Binary64 :=
  let (negative, rest) := takeSign cs
  match String.ofList (rest.map Char.toLower) with
  | "inf" | "infinity" => some (.infinite negative)
  | "nan" => some .nan
  | _ => (readMagnitude? rest).map (Binary64.ofMagnitude? negative)

end LinkSieve.Decimal
