import LinkSieve.Address.Ipv6
import LinkSieve.Text.Lowercase
import LinkSieve.Text.Percent
import LinkSieve.Url.Error
import LinkSieve.Url.Escaped
import LinkSieve.Url.Punycode

/-!
# Hosts of URLs

The host of a URL is an IPv6 address in square brackets, or a name. Under a web scheme a name is a
domain name, which is read without regard to case, or an IPv4 address in any of its numeral
forms; under every other scheme it is opaque and kept as written. Domain names of other scripts than
ASCII are not mapped: they count as ill formed unless they are written in their encoded form.
-/

namespace LinkSieve.Url

open Address (Ipv4 Ipv6)

/-- The host of a URL. -/
inductive Host where
  | name (text : String)
  | ipv4 (ip : Ipv4)
  | ipv6 (ip : Ipv6)
deriving DecidableEq, Repr

namespace Host

/-- The text of a host within a URL. -/
def text : Host → String
  | .name text => text
  | .ipv4 ip => String.ofList ip.text
  | .ipv6 ip => String.ofList ('[' :: (ip.shortText ++ [']']))

/-- Reads an IPv6 address in square brackets, of which the first has been seen. -/
def readBracketed (inner : List Char) : Except ParseError Host :=
  if inner.getLast? = some ']' then
    match Ipv6.read? inner.dropLast with
    | some ip => .ok (.ipv6 ip)
    | none => .error .badIpv6
  else .error .badIpv6

/-- A character that no host holds. -/
def isForbidden (c : Char) : Bool :=
  c = '\x00' || c = '\t' || c = '\n' || c = '\r' || "#/:<>?@[\\]^| ".toList.contains c

/-- Reads the host of a URL whose scheme gives it no further meaning. -/
def readOpaque (cs : List Char) : Except ParseError Host :=
  match cs with
  | '[' :: inner => readBracketed inner
  | _ =>
    if cs.any isForbidden then .error .badHostCharacter
    else .ok (.name (String.ofList (Text.Percent.encode Escaped.always cs)))

/-- A number in decimal, octal or hexadecimal digits; a mere `0x` is zero. -/
def readNumeral? (cs : List Char) : Option Nat :=
  match cs with
  | '0' :: 'x' :: digits | '0' :: 'X' :: digits =>
    if digits.isEmpty then some 0 else Decimal.readNat? 16 digits
  | '0' :: c :: digits => Decimal.readNat? 8 (c :: digits)
  | _ => Decimal.readNat? 10 cs

/-- The pieces of a name between points, without an empty one at the end. -/
def labels (cs : List Char) : List (List Char) :=
  let pieces := cs.splitOn '.'
  if 1 < pieces.length && pieces.getLast? = some [] then pieces.dropLast else pieces

/-- Whether a name ends in a number and so has to be an IPv4 address. -/
def endsInNumber (cs : List Char) : Bool :=
  match (labels cs).getLast? with
  | some last => (!last.isEmpty && last.all (Decimal.isDigit 10)) || (readNumeral? last).isSome
  | none => false

/-- An IPv4 address of one to four numbers, the last of which fills all the bytes that are left. -/
def ofNumerals? (numbers : List Nat) : Option Ipv4 :=
  match numbers.getLast? with
  | none => none
  | some last =>
    let first := numbers.dropLast
    if 3 < first.length || Nat.pow 256 (4 - first.length) ≤ last || first.any (255 < ·) then none
    else some (Ipv4.ofNat ((first ++ List.replicate (4 - first.length) 0).foldl
      (fun n part => n * 256 + part) 0 + last))

/-- The characters that no domain name holds. -/
def isForbiddenInName (c : Char) : Bool :=
  c.toNat ≤ 0x20 || 0x7F ≤ c.toNat || "%#/:<>?@[\\]^|".toList.contains c

/-- Whether a lower-cased label of a domain name is well formed; only a label in the encoded form
of other scripts can fail. -/
def isLabel (cs : List Char) : Bool :=
  match cs with
  | 'x' :: 'n' :: '-' :: '-' :: encoded => Punycode.isEncoded encoded
  | _ => true

/-- Reads the host of a URL with a web scheme. Names are read as far as ASCII goes: one with a
character beyond it, which would have to be mapped to its encoded form, is refused, and of a label
in the encoded form it is only checked that the encoding is sound. -/
def readWeb (cs : List Char) : Except ParseError Host :=
  match cs with
  | '[' :: inner => readBracketed inner
  | _ =>
    let decoded := Text.Utf8.decodeLossy (Text.Percent.decode (Text.Utf8.encode cs))
    let name := decoded.map Text.lowerAscii
    if name.any isForbiddenInName || !(name.splitOn '.').all isLabel then .error .badName
    else if name.isEmpty then .error .emptyHost
    else if endsInNumber name then
      match ((labels name).mapM readNumeral?).bind ofNumerals? with
      | some ip => .ok (.ipv4 ip)
      | none => .error .badIpv4
    else .ok (.name (String.ofList name))

end Host

end LinkSieve.Url
