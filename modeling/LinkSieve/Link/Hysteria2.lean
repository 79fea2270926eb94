import LinkSieve.Link.ShareLink

/-!
# Hysteria2 links

`hysteria2://auth@host:port?obfs=salamander&obfs-password=…#label`, or with the short scheme
`hy2`, which is kept. A link without obfuscation is rejected whatever the rules say.
-/

namespace LinkSieve.Link.Hysteria2

/-- The title of the format in messages. -/
def title : String := "Hysteria2"

/-- The credentials as they stand in a URL: a name, and a password after a colon if there is
one. -/
def userinfo (url : Url) : String :=
  match url.password with
  | some password => url.username ++ ":" ++ password
  | none => url.username

/-- The one method of obfuscation that a public link may use. -/
def obfuscation : String := "salamander"

/-- Parameters that name the method of obfuscation and a password for it. -/
def checkObfuscation (params : Params) : Except Rejection Params :=
  let method := (params.get? "obfs").getD ""
  if method.isEmpty then .error .missingObfuscation
  else if method ≠ obfuscation then .error (.unknownObfuscation method)
  else if ((params.get? "obfs-password").getD "").isEmpty then
    .error .missingObfuscationPassword
  else .ok params

/-- The canonical link of a URL. -/
def link (url : Url) : Except Rejection ShareLink := do
  if url.username.isEmpty && url.password.isNone then throw .missingAuth
  let server ← readServer title url
  return {
    scheme := url.scheme
    userinfo := userinfo url
    server
    path := ""
    query := Query.ofUrl url
    fragment := url.fragment }

/-- Reads a line. -/
def draft (line : String) : Except Rejection Draft := do
  checkLength line
  let url ← readUrl title line
  if url.scheme ≠ "hysteria2" && url.scheme ≠ "hy2" then throw .wrongHysteriaScheme
  let link ← link url
  return {
    label := label url
    params := checkObfuscation link.query.first
    canonical := link.text }

end LinkSieve.Link.Hysteria2
