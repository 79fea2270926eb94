import LinkSieve.Address.Ipv6
import LinkSieve.Text.Lowercase
import LinkSieve.Text.Split

/-!
# Servers

The host and port at which a proxy is reached. A host is an IP address or a domain name of at
least two labels; a name in the encoded form of other scripts has a looser grammar.

## Implementation notes

Both grammars of names are checked in one pass over the characters, which only remembers what
the last character was and whether a point has been passed.
-/

namespace LinkSieve.Address

/-- A letter or digit of a lower-cased name. -/
def isNameChar (c : Char) : Bool :=
  ('a' ≤ c && c ≤ 'z') || ('0' ≤ c && c ≤ '9')

/-- What the last character of a name was. -/
inductive NamePlace where
  | labelStart
  | afterNameChar
  | afterHyphen
deriving DecidableEq, Repr

/-- Whether the rest of a name completes labels that neither start nor end with a hyphen; the
flag says whether a point has been passed. -/
def isNameFrom : NamePlace → Bool → List Char → Bool
  | place, dotted, [] => place = .afterNameChar && dotted
  | place, dotted, c :: rest =>
    if isNameChar c then isNameFrom .afterNameChar dotted rest
    else if c = '-' then place ≠ .labelStart && isNameFrom .afterHyphen dotted rest
    else if c = '.' then place = .afterNameChar && isNameFrom .labelStart true rest
    else false

/-- Whether the rest of an encoded name completes parts that are not empty; the first flag says
whether the part under way has a character, the second whether a point has been passed. -/
def isEncodedNameFrom : Bool → Bool → List Char → Bool
  | inPart, dotted, [] => inPart && dotted
  | inPart, dotted, c :: rest =>
    if isNameChar c || c = '-' then isEncodedNameFrom true dotted rest
    else if c = '.' then inPart && isEncodedNameFrom false true rest
    else false

/-- Whether a lower-cased text is a domain name of at least two labels. -/
def isDomainName (cs : List Char) : Bool :=
  isNameFrom .labelStart false cs ||
    match Text.dropPrefix? "xn--".toList cs with
    | some rest => isEncodedNameFrom false false rest
    | none => false

/-- A text without a pair of square brackets around it. -/
def unbracket (cs : List Char) : List Char :=
  match cs with
  | '[' :: rest => if rest.getLast? = some ']' then rest.dropLast else cs
  | _ => cs

/-- Whether a text is the text of an IP address. -/
def isIpAddress (cs : List Char) : Bool :=
  (Ipv4.read? cs).isSome || (Ipv6.read? cs).isSome

/-- Whether a text names a host: an IP address, with or without square brackets, or a domain name
in letters of either case. -/
def isHost (cs : List Char) : Bool :=
  isIpAddress (unbracket cs) || isDomainName (cs.map Text.lowerAscii)

/-- Whether a number can be the port of a server. -/
def isPort (port : Int) : Bool :=
  1 ≤ port && port ≤ 65535

/-- A host, without square brackets, and a port. -/
structure Server where
  host : String
  port : Nat
deriving DecidableEq, Repr

/-- The text of a server; a host with colons stands between square brackets. -/
def Server.text (server : Server) : List Char :=
  let host := server.host.toList
  let host := if host.contains ':' then '[' :: (host ++ [']']) else host
  host ++ ':' :: Decimal.natText server.port

end LinkSieve.Address
