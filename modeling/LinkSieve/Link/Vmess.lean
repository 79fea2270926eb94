import LinkSieve.Base64
import LinkSieve.Decimal.Reading
import LinkSieve.Json.Printer
import LinkSieve.Json.Reading
import LinkSieve.Link.ShareLink
import LinkSieve.Text.Blank

/-!
# VMess links

`vmess://` and the Base64 of a JSON object with the details of the connection. Every text and
number of the object is a parameter that a rule may look at. The canonical form has the fields in
the order of their names, in padded standard Base64. Every value of JSON has a text, one of a number
that is not finite included, so the fields can always be written: the reason `failed to re-encode
VMess config` is left out, since nothing leads to it.
-/

namespace LinkSieve.Link.Vmess

/-- The title of the format in messages. -/
def title : String := "VMess"

/-- The fields of an object by name. -/
abbrev Fields := Table Json

/-- The object that the payload of a line decodes to. -/
def readFields (payload : List Char) : Except Rejection Fields :=
  match Base64.decodeDetected payload with
  | .error _ => .error .badPayloadBase64
  | .ok data =>
    match (Text.Utf8.decode? data).bind Json.read? with
    | some (.object fields) => .ok (Json.canonicalFields fields)
    | _ => .error .badPayloadJson

/-- The text in a field, empty if there is none. -/
def textField (fields : Fields) (name : String) : String :=
  match fields.get? name with
  | some (.text s) => s
  | _ => ""

/-- A number as a port, if it is an integer and one that a port can have. -/
def portOf (n : Option Int) : Except Rejection Nat :=
  match n with
  | some n => if Address.isPort n then .ok n.toNat else .error .portNumberOutOfRange
  | none => .error .portNumberOutOfRange

/-- The port, given as a number or as a text of one. -/
def readPort (value : Option Json) : Except Rejection Nat :=
  match value with
  | some (.number (.int n)) => portOf (some n)
  | some (.number (.float x)) => portOf x.toInt?
  | some (.text s) =>
    match Decimal.readBinary64? (Text.trim s.toList) with
    | some x => portOf x.toInt?
    | none => .error .badPortText
  | _ => .error .missingPortField

/-- A number as a rule sees it: without a fraction if it has none and is not huge. -/
def numberText : Json.Number → String
  | .int n => toString n
  | .float x =>
    match x.toInt? with
    | some n => if n.natAbs < 1_000_000_000_000_000 then toString n else x.plainText
    | none => x.plainText

/-- A field as a rule sees it. -/
def paramText? : Json → Option String
  | .text s => some s
  | .number n => some (numberText n)
  | _ => none

/-- The parameters that a rule sees: the fields with a text or a number. -/
def policyParams (fields : Fields) : Params :=
  fields.filterMap fun _ value => paramText? value

/-- The canonical text of a link with given fields. -/
def text (fields : Fields) : String :=
  String.ofList ("vmess://".toList ++
    Base64.encodeText .standard (Json.write (.object fields.entries)))

/-- Reads a line. -/
def draft (line : String) : Except Rejection Draft := do
  checkLength line
  let some payload := afterScheme? "vmess".toList line.toList | throw .notVmess
  if payload.isEmpty then throw .emptyPayload
  let fields ← readFields payload
  let host := textField fields "add"
  if host.isEmpty || (textField fields "id").isEmpty then throw .missingServerOrUuid
  let _ ← readPort (fields.get? "port")
  if !Address.isHost host.toList then throw .badServerHost
  return {
    label := textField fields "ps"
    params := .ok (policyParams fields)
    canonical := text fields }

end LinkSieve.Link.Vmess
