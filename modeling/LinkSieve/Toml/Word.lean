import LinkSieve.Decimal.Reading
import LinkSieve.Document

/-!
# Words of TOML

Numbers, truth values, dates and times, each of which is a single word. Digits may be grouped by
single underscores. An integer has 64 bits with its sign; a date has to be one of the calendar.
-/

namespace LinkSieve.Toml

/-- Digits of a base without the underscores between them. -/
def ungroup? (base : Nat) : List Char → Option (List Char)
  | [] => none
  | [c] => if Decimal.isDigit base c then some [c] else none
  | c :: '_' :: rest => if Decimal.isDigit base c then (ungroup? base rest).map (c :: ·) else none
  | c :: rest => if Decimal.isDigit base c then (ungroup? base rest).map (c :: ·) else none

/-- Decimal digits that do not start with a superfluous zero. -/
def wholeDigits? (cs : List Char) : Option (List Char) :=
  (ungroup? 10 cs).filter fun digits => digits.head? ≠ some '0' || digits.length = 1

/-- An integer that has 64 bits. -/
def inRange? (n : Int) : Option Int :=
  if -0x8000_0000_0000_0000 ≤ n && n < 0x8000_0000_0000_0000 then some n else none

/-- The integer that a word writes. -/
def integer? (cs : List Char) : Option Int :=
  let ofBase (base : Nat) (digits : List Char) : Option Int :=
    (ungroup? base digits).bind fun ds => inRange? (Decimal.ofDigits base ds)
  match cs with
  | '0' :: 'x' :: digits => ofBase 16 digits
  | '0' :: 'o' :: digits => ofBase 8 digits
  | '0' :: 'b' :: digits => ofBase 2 digits
  | _ =>
    let (negative, digits) := Decimal.takeSign cs
    (wholeDigits? digits).bind fun ds =>
      let n : Int := Decimal.ofDigits 10 ds
      inRange? (if negative then -n else n)

/-- The digits of an exponent, with a sign if there is one. -/
def exponent? (cs : List Char) : Option (List Char) :=
  match cs with
  | '+' :: rest => ungroup? 10 rest
  | '-' :: rest => (ungroup? 10 rest).map ('-' :: ·)
  | rest => ungroup? 10 rest

/-- The plain form of a number with a fraction or an exponent, without its sign. -/
def fractional? (cs : List Char) : Option (List Char) := do
  let isWhole (c : Char) : Bool := Decimal.isDigit 10 c || c = '_'
  let whole ← wholeDigits? (cs.takeWhile isWhole)
  let (fraction, after) ← match cs.dropWhile isWhole with
    | '.' :: rest => do
      let digits ← ungroup? 10 (rest.takeWhile isWhole)
      some ('.' :: digits, rest.dropWhile isWhole)
    | rest => some ([], rest)
  match after with
  | [] => if fraction.isEmpty then none else some (whole ++ fraction)
  | c :: rest =>
    if c = 'e' || c = 'E' then
      return whole ++ fraction ++ 'e' :: (← exponent? rest)
    else none

/-- The number with a fraction that a word writes. One too great for the format is none, unless it
is negative. -/
def float? (cs : List Char) : Option Decimal.Binary64 :=
  let (negative, rest) := Decimal.takeSign cs
  match String.ofList rest with
  | "inf" => some (.infinite negative)
  | "nan" => some .nan
  | _ =>
    match (fractional? rest).bind Decimal.readMagnitude? with
    | some (some m) => some (.finite negative m)
    | some none => if negative then some (.infinite true) else none
    | none => none

/-- A number of a given count of digits, within bounds. -/
def field? (count low high : Nat) (cs : List Char) : Option Nat :=
  if cs.length = count then
    (Decimal.readNat? 10 cs).filter fun n => low ≤ n && n ≤ high
  else none

/-- Whether a year has a leap day. -/
def isLeap (year : Nat) : Bool :=
  year % 4 = 0 && (year % 100 ≠ 0 || year % 400 = 0)

/-- The number of days in a month. -/
def daysIn (year month : Nat) : Nat :=
  if month = 2 then (if isLeap year then 29 else 28)
  else if [4, 6, 9, 11].contains month then 30 else 31

/-- Whether a text is a date. -/
def isDate (cs : List Char) : Bool :=
  match cs.splitOn '-' with
  | [year, month, day] =>
    match field? 4 0 9999 year, field? 2 1 12 month, field? 2 1 31 day with
    | some y, some m, some d => d ≤ daysIn y m
    | _, _, _ => false
  | _ => false

/-- Whether a text is a time of day, with or without a fraction of the second. -/
def isTime (cs : List Char) : Bool :=
  match cs.splitOn ':' with
  | [hour, minute, second] =>
    let whole := second.takeWhile (· ≠ '.')
    let fraction := second.dropWhile (· ≠ '.')
    (field? 2 0 23 hour).isSome && (field? 2 0 59 minute).isSome &&
      (field? 2 0 60 whole).isSome &&
      (fraction.isEmpty || (Decimal.readNat? 10 (fraction.drop 1)).isSome)
  | _ => false

/-- Whether a text is a distance from universal time. -/
def isOffset (cs : List Char) : Bool :=
  match cs.splitOn ':' with
  | [hour, minute] => (field? 2 0 23 hour).isSome && (field? 2 0 59 minute).isSome
  | _ => false

/-- Whether a text is a time of day with a distance from universal time or without. -/
def isZonedTime (cs : List Char) : Bool :=
  let local_ := cs.takeWhile fun c => !(c = 'Z' || c = 'z' || c = '+' || c = '-')
  isTime local_ && match cs.drop local_.length with
    | [] => true
    | [c] => c = 'Z' || c = 'z'
    | _ :: offset => isOffset offset

/-- Whether a word is a date, a time, or both. -/
def isMoment (cs : List Char) : Bool :=
  isTime cs ||
    (isDate (cs.take 10) && match cs.drop 10 with
      | [] => true
      | c :: rest => (c = 'T' || c = 't' || c = ' ') && isZonedTime rest)

/-- The value of a word. -/
def word? (cs : List Char) : Option Document :=
  match String.ofList cs with
  | "true" => some (.scalar (.bool true) none)
  | "false" => some (.scalar (.bool false) none)
  | _ =>
    match integer? cs with
    | some n => some (.scalar (.int n) none)
    | none =>
      match float? cs with
      | some x => some (.scalar (.float x) none)
      | none => if isMoment cs then some (.scalar .foreign none) else none

end LinkSieve.Toml
