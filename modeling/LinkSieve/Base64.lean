import LinkSieve.Text.Utf8

/-!
# Base64

Bytes written six bits to a symbol. A dialect chooses between two alphabets, which differ in
their last two symbols, and between filling the last group with equals signs and leaving it
short. The dialect of a text is read off the text: it is the one dialect that can have produced
a symbol or an ending found there.

Decoding accepts a last symbol with unused bits set and drops them; everything else that no
encoder writes is an error, and the error says where it stands.
-/

namespace LinkSieve.Base64

/-- How bytes are written: the URL-safe alphabet or the standard one, with or without padding. -/
structure Dialect where
  urlSafe : Bool
  padded : Bool
deriving DecidableEq, Repr

namespace Dialect

/-- Standard alphabet with padding. -/
def standard : Dialect := ⟨false, true⟩

/-- Standard alphabet without padding. -/
def standardBare : Dialect := ⟨false, false⟩

/-- URL-safe alphabet with padding. -/
def url : Dialect := ⟨true, true⟩

/-- URL-safe alphabet without padding. -/
def urlBare : Dialect := ⟨true, false⟩

/-- The name of a dialect. -/
def name : Dialect → String
  | ⟨false, true⟩ => "Standard"
  | ⟨false, false⟩ => "StandardNoPad"
  | ⟨true, true⟩ => "UrlSafe"
  | ⟨true, false⟩ => "UrlSafeNoPad"

/-- The dialect that a text shows: a hyphen or an underscore is a symbol of the URL-safe alphabet
only, and an equals sign at the end is padding. -/
def detect (text : List Char) : Dialect :=
  ⟨text.any fun c => c = '-' || c = '_', text.getLast? = some '='⟩

end Dialect

/-- The symbol for a number below sixty-four. -/
def symbol (urlSafe : Bool) (n : Nat) : Char :=
  if n < 26 then Char.ofNat (n + 65)
  else if n < 52 then Char.ofNat (n - 26 + 97)
  else if n < 62 then Char.ofNat (n - 52 + 48)
  else if n = 62 then (if urlSafe then '-' else '+')
  else (if urlSafe then '_' else '/')

/-- The number that a symbol stands for. -/
def value? (urlSafe : Bool) (b : UInt8) : Option Nat :=
  let n := b.toNat
  if 65 ≤ n ∧ n ≤ 90 then some (n - 65)
  else if 97 ≤ n ∧ n ≤ 122 then some (n - 97 + 26)
  else if 48 ≤ n ∧ n ≤ 57 then some (n - 48 + 52)
  else if n = (if urlSafe then 45 else 43) then some 62
  else if n = (if urlSafe then 95 else 47) then some 63
  else none

/-- The six-bit groups of a byte string, the last one filled up with zero bits. -/
def groups : List UInt8 → List Nat
  | a :: b :: c :: rest =>
    a.toNat / 4 :: (a.toNat % 4 * 16 + b.toNat / 16) :: (b.toNat % 16 * 4 + c.toNat / 64) ::
      c.toNat % 64 :: groups rest
  | [a, b] => [a.toNat / 4, a.toNat % 4 * 16 + b.toNat / 16, b.toNat % 16 * 4]
  | [a] => [a.toNat / 4, a.toNat % 4 * 16]
  | [] => []

/-- The bytes that six-bit groups make up; bits that fill no byte are dropped. -/
def bytes : List Nat → List UInt8
  | a :: b :: c :: d :: rest =>
    UInt8.ofNat (a * 4 + b / 16) :: UInt8.ofNat (b % 16 * 16 + c / 4) ::
      UInt8.ofNat (c % 4 * 64 + d) :: bytes rest
  | [a, b, c] => [UInt8.ofNat (a * 4 + b / 16), UInt8.ofNat (b % 16 * 16 + c / 4)]
  | [a, b] => [UInt8.ofNat (a * 4 + b / 16)]
  | _ => []

/-- A text with equals signs added up to a multiple of four bytes. -/
def pad (text : List Char) : List Char :=
  text ++ List.replicate ((4 - Text.Utf8.size text % 4) % 4) '='

/-- Writes bytes in a dialect. -/
def encode (d : Dialect) (data : List UInt8) : List Char :=
  let text := (groups data).map (symbol d.urlSafe)
  if d.padded then pad text else text

/-- Why a text is not Base64 of a dialect. -/
inductive DecodeError where
  /-- A byte stands where it has no place. -/
  | badSymbol (byte : UInt8) (offset : Nat)
  /-- The last group has too few symbols to make up a byte. -/
  | badLength (symbols : Nat)
  /-- The padding is not the dialect's. -/
  | badPadding
deriving DecidableEq, Repr

/-- The wording of an error. -/
def DecodeError.message : DecodeError → String
  | .badSymbol byte offset => s!"Invalid symbol {byte}, offset {offset}."
  | .badLength symbols => s!"Invalid input length: {symbols}"
  | .badPadding => "Invalid padding"

/-- The padding byte. -/
def padByte : UInt8 := 0x3D

/-- Reads bytes that all have to be symbols; `offset` is where the first one stands. -/
def readSymbols (urlSafe : Bool) (offset : Nat) : List UInt8 → Except DecodeError (List Nat)
  | [] => .ok []
  | b :: rest =>
    match value? urlSafe b with
    | none => .error (.badSymbol b offset)
    | some v => (readSymbols urlSafe (offset + 1) rest).map (v :: ·)

/-- Reads the last group, which starts at `start`: symbols and then padding, which takes no place
of the first two. Gives the symbols' values and the number of padding bytes. -/
def readLast (urlSafe : Bool) (start : Nat) (place : Nat) :
    List UInt8 → Except DecodeError (List Nat × Nat)
  | [] => .ok ([], 0)
  | b :: rest =>
    if b = padByte then
      if 2 ≤ place && rest.all (· = padByte) then .ok ([], rest.length + 1)
      else .error (.badSymbol padByte (start + place))
    else
      match value? urlSafe b with
      | none => .error (.badSymbol b (start + place))
      | some v => (readLast urlSafe start (place + 1) rest).map fun (vs, pads) => (v :: vs, pads)

/-- Where the last group of a text of a given length starts, be it full or short. -/
def lastStart (length : Nat) : Nat :=
  if length % 4 = 0 then length - 4 else length - length % 4

/-- A byte that is alone in its group and no symbol: it is reported before anything else. -/
def strayLast? (urlSafe : Bool) (text : List UInt8) : Option UInt8 :=
  if text.length % 4 = 1 then
    text.getLast?.filter fun b => b ≠ padByte && (value? urlSafe b).isNone
  else none

/-- Reads Base64 of a dialect. -/
def decode (d : Dialect) (text : List UInt8) : Except DecodeError (List UInt8) := do
  if let some b := strayLast? d.urlSafe text then
    throw (.badSymbol b (text.length - 1))
  let start := lastStart text.length
  let full ← readSymbols d.urlSafe 0 (text.take start)
  let (last, pads) ← readLast d.urlSafe start 0 (text.drop start)
  if text ≠ [] && last.length < 2 then
    throw (.badLength (start + last.length))
  let well := if d.padded then (pads + last.length) % 4 = 0 else pads = 0
  if well then return bytes (full ++ last) else throw .badPadding

/-- Reads Base64 in the dialect that the text shows. -/
def decodeDetected (text : List Char) : Except DecodeError (List UInt8) :=
  decode (Dialect.detect text) (Text.Utf8.encode text)

/-- Reads Base64 of a text in the dialect shown. -/
def decodeText? (text : List Char) : Option (List Char) :=
  match decodeDetected text with
  | .ok data => Text.Utf8.decode? data
  | .error _ => none

/-- Writes a text in a dialect. -/
def encodeText (d : Dialect) (text : List Char) : List Char :=
  encode d (Text.Utf8.encode text)

end LinkSieve.Base64
