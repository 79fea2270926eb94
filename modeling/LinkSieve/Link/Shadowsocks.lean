import LinkSieve.Base64
import LinkSieve.Link.ShareLink

/-!
# Shadowsocks links

`ss://userinfo@host:port?parameters#label`, where the user info is a cipher and a password, as
Base64 or as plain text. In the legacy form everything between scheme and parameters is Base64.
All forms have one canonical form, with unpadded URL-safe Base64.
-/

namespace LinkSieve.Link.Shadowsocks

/-- The title of the format in messages. -/
def title : String := "Shadowsocks"

/-- The Base64 of a text as it stands in canonical links. -/
def encode (cs : List Char) : List Char :=
  Base64.encodeText .urlBare cs

/-- The user info and the server that a legacy payload stands for, as they stand in a link. -/
def expandPayload (payload : List Char) : Except Rejection (List Char) :=
  match Base64.decodeText? payload with
  | none => .error .badLegacyBase64
  | some decoded =>
    match Text.cutLast? '@' decoded with
    | none => .error .badLegacyPayload
    | some (credentials, server) => .ok (encode credentials ++ '@' :: server)

/-- A link with its payload expanded if it is in legacy form, in which there is no at sign before
the parameters. Every other link is left as it is. -/
def expandLegacy (line : String) : Except Rejection String := do
  let some rest := afterScheme? "ss".toList line.toList | throw (.wrongScheme title)
  let (body, fragment) := Text.cutOption '#' rest
  let (payload, query) := Text.cutOption '?' body
  if payload.contains '@' then return line
  let expanded ← expandPayload payload
  let tail (mark : Char) (part : Option (List Char)) : List Char :=
    match part with
    | some cs => mark :: cs
    | none => []
  return String.ofList ("ss://".toList ++ expanded ++ tail '?' query ++ tail '#' fragment)

/-- The text that an escaped one stands for. -/
def unescape (s : String) : Except Rejection (List Char) :=
  match Text.Utf8.decode? (Text.Percent.decode (Text.Utf8.encode s.toList)) with
  | some cs => .ok cs
  | none => .error .badUserInfoEncoding

/-- The cipher and the password. With a password of its own the user info is plain text; without
one it is Base64 of both with a colon between them. -/
def credentials (username : String) (password : Option String) :
    Except Rejection (List Char × List Char) :=
  match password with
  | some password => do
    let cipher ← unescape username
    let password ← unescape password
    return (cipher, password)
  | none => do
    let encoded ← unescape username
    let some decoded := Base64.decodeText? encoded | throw .badUserInfoBase64
    let some pair := Text.cutFirst? ':' decoded | throw .badUserInfoFormat
    return pair

/-- Whether a text can name a cipher. -/
def isCipher (cs : List Char) : Bool :=
  cs.all fun c => c.isAlphanum || c = '_' || c = '+' || c = '-'

/-- The canonical link of a URL, and the cipher. -/
def link (url : Url) : Except Rejection (ShareLink × List Char) := do
  if url.username.isEmpty then throw .missingUserInfo
  let (cipher, password) ← credentials url.username url.password
  if cipher.isEmpty || password.isEmpty then throw .missingCredentials
  let server ← readServer title url
  let link : ShareLink := {
    scheme := "ss"
    userinfo := String.ofList (encode (cipher ++ ':' :: password))
    server
    path := ""
    query := Query.ofUrl url
    fragment := url.fragment }
  return (link, cipher)

/-- The parameters that a rule sees: those of the query, with the cipher as the method. -/
def policyParams (q : Query) (cipher : List Char) : Except Rejection Params :=
  if isCipher cipher then .ok (q.first.insert "method" (String.ofList cipher))
  else .error .badCipher

/-- Reads a line. -/
def draft (line : String) : Except Rejection Draft := do
  checkLength line
  let line ← expandLegacy line
  let url ← readUrlOf "ss" title line
  let (link, cipher) ← link url
  return { label := label url, params := policyParams link.query cipher, canonical := link.text }

end LinkSieve.Link.Shadowsocks
