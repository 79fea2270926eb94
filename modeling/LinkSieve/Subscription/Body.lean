import LinkSieve.Base64
import LinkSieve.Text.Blank
import LinkSieve.Text.Split

/-!
# Subscription bodies

A subscription is a list of links, one to a line, either as it is or wrapped in Base64 as a whole.
A body is recognised by the schemes of links in it; a wrapped one is unwrapped only if they show
up that way and not before.
-/

namespace LinkSieve.Subscription

/-- The texts by which a list of links is recognised. -/
def markers : List String :=
  ["vless://", "vmess://", "trojan://", "ss://", "hysteria2://", "hy2://"]

/-- Whether a link of a known scheme starts somewhere in a body. -/
def hasMarker (body : List UInt8) : Bool :=
  markers.any fun marker => Text.occursIn (Text.Utf8.encode marker.toList) body

/-- Whether a body is made of visible ASCII characters, spaces, tabs and line breaks. -/
def isPrintable (body : List UInt8) : Bool :=
  body.all fun b => (0x20 ≤ b && b ≤ 0x7E) || b = 0x09 || b = 0x0A || b = 0x0D

/-- Reads standard Base64 with padding or, if it is none, without. -/
def decodeStandard (text : List UInt8) : Except Base64.DecodeError (List UInt8) :=
  tryCatch (Base64.decode .standard text) fun _ => Base64.decode .standardBare text

/-- The body that a Base64 text wraps. White space within the text is passed over and missing
padding is added; a body that is not printable counts as not wrapped. -/
def unwrap? (body : List UInt8) : Option (List UInt8) :=
  let text := (Text.Utf8.decodeLossy body).filter (!Text.isBlank ·)
  match decodeStandard (Text.Utf8.encode (Base64.pad text)) with
  | .ok inner => if isPrintable inner then some inner else none
  | .error _ => none

/-- The body that is wrapped, or else the body itself. -/
def unwrap (body : List UInt8) : List UInt8 :=
  (unwrap? body).getD body

/-- The forms of a body. -/
inductive Form where
  | plain
  | wrapped
  | unknown
deriving DecidableEq, Repr

/-- The name of a form. -/
def Form.name : Form → String
  | .plain => "Plain URI List"
  | .wrapped => "Base64 URI List"
  | .unknown => "Unknown"

/-- The form of a body. -/
def Form.ofBody (body : List UInt8) : Form :=
  if hasMarker body then .plain
  else if hasMarker (unwrap body) then .wrapped
  else .unknown

/-- The text of a body, unwrapped if it is wrapped. -/
def text (body : List UInt8) : List Char :=
  match Form.ofBody body with
  | .wrapped => Text.Utf8.decodeLossy (unwrap body)
  | .plain | .unknown => Text.Utf8.decodeLossy body

/-- A line without the carriage return at its end. -/
def dropReturn (line : List Char) : List Char :=
  if line.getLast? = some '\r' then line.dropLast else line

/-- Whether a line can be a link: it is neither blank nor a comment. -/
def isCandidate (line : List Char) : Bool :=
  !(Text.trim line).isEmpty && line.head? ≠ some '#'

/-- The lines of a text that can be links. -/
def lines (text : List Char) : List (List Char) :=
  ((text.splitOn '\n').map dropReturn).filter isCandidate

/-- The lines of a body that can be links. -/
def candidates (body : List UInt8) : List String :=
  (lines (text body)).map String.ofList

end LinkSieve.Subscription
