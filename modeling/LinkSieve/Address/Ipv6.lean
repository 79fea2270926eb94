import LinkSieve.Address.Ipv4

/-!
# IPv6 addresses

An address of eight pieces of sixteen bits. In its text a pair of colons stands for one or more
zero pieces, and the last two pieces may be written as an IPv4 address. Written out, the longest
stretch of at least two zero pieces is left out, the first one among equals.
-/

namespace LinkSieve.Address

/-- An IPv6 address. -/
structure Ipv6 where
  pieces : List UInt16
  length_pieces : pieces.length = 8
deriving DecidableEq, Repr

namespace Ipv6

/-- An address from its pieces, if there are eight of them. -/
def ofPieces? (pieces : List UInt16) : Option Ipv6 :=
  if h : pieces.length = 8 then some ⟨pieces, h⟩ else none

/-- One piece: one to four hexadecimal digits. -/
def readPiece? (cs : List Char) : Option UInt16 :=
  if 4 < cs.length then none
  else (Decimal.readNat? 16 cs).map UInt16.ofNat

/-- The two pieces that an IPv4 address makes up. -/
def ofIpv4 (ip : Ipv4) : List UInt16 :=
  [UInt16.ofNat (ip.a.toNat * 256 + ip.b.toNat), UInt16.ofNat (ip.c.toNat * 256 + ip.d.toNat)]

/-- Pieces given between colons, the last of which may be an IPv4 address. -/
def readPieces? : List (List Char) → Option (List UInt16)
  | [] => some []
  | [last] =>
    if last.contains '.' then (Ipv4.read? last).map ofIpv4
    else (readPiece? last).map fun n => [n]
  | cs :: rest => do
    let n ← readPiece? cs
    let ns ← readPieces? rest
    return n :: ns

/-- The pieces of one side of a pair of colons. -/
def readSide? (last : Bool) (cs : List Char) : Option (List UInt16) :=
  if cs.isEmpty then some []
  else if last then readPieces? (cs.splitOn ':')
  else (cs.splitOn ':').mapM readPiece?

/-- What stands before and after the first pair of colons. -/
def cutGap? : List Char → Option (List Char × List Char)
  | ':' :: ':' :: rest => some ([], rest)
  | c :: rest => (cutGap? rest).map fun (before, after) => (c :: before, after)
  | [] => none

/-- Reads the text of an address. A pair of colons stands for at least one piece. -/
def read? (cs : List Char) : Option Ipv6 :=
  match cutGap? cs with
  | none => (readPieces? (cs.splitOn ':')).bind ofPieces?
  | some (before, after) => do
    let first ← readSide? false before
    let last ← readSide? true after
    if first.length + last.length < 8 then
      ofPieces? (first ++ List.replicate (8 - first.length - last.length) 0 ++ last)
    else none

/-- The hexadecimal digits of a piece. -/
def pieceText (n : UInt16) : List Char :=
  Nat.toDigits 16 n.toNat

/-- Pieces with colons between them. -/
def piecesText (pieces : List UInt16) : List Char :=
  List.intercalate [':'] (pieces.map pieceText)

/-- The number of zero pieces at the start. -/
def zerosAt (pieces : List UInt16) : Nat :=
  (pieces.takeWhile (· == 0)).length

/-- Where the longest stretch of zero pieces starts, and its length: the first one among equals. -/
def longestZeros : List UInt16 → Nat × Nat
  | [] => (0, 0)
  | n :: rest =>
    let (start, length) := longestZeros rest
    if length ≤ zerosAt (n :: rest) then (0, zerosAt (n :: rest)) else (start + 1, length)

/-- The shortest hexadecimal text. -/
def shortText (ip : Ipv6) : List Char :=
  let (start, length) := longestZeros ip.pieces
  if 2 ≤ length then
    piecesText (ip.pieces.take start) ++ "::".toList ++ piecesText (ip.pieces.drop (start + length))
  else piecesText ip.pieces

/-- The two bytes of a piece, as numbers of an IPv4 address. -/
def bytesOf (n : UInt16) : UInt8 × UInt8 :=
  (UInt8.ofNat (n.toNat / 256), UInt8.ofNat n.toNat)

/-- The text of an address; one that embeds an IPv4 address shows it. -/
def text (ip : Ipv6) : List Char :=
  match ip.pieces with
  | [0, 0, 0, 0, 0, 0xFFFF, high, low] =>
    let (a, b) := bytesOf high
    let (c, d) := bytesOf low
    "::ffff:".toList ++ Ipv4.text ⟨a, b, c, d⟩
  | _ => ip.shortText

end Ipv6

end LinkSieve.Address
