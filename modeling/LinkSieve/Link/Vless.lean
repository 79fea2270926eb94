import LinkSieve.Link.ShareLink

/-!
# VLESS links

`vless://uuid@host:port[/path]?parameters#label`. Switches that turn off the check of certificates
are never passed on, and of a list of application protocols only the first one is kept.
-/

namespace LinkSieve.Link.Vless

/-- The title of the format in messages. -/
def title : String := "VLESS"

/-- The longest identifier, in bytes. -/
def maxUuidLength : Nat := 64

/-- Parameters without the switches that turn off the check of certificates. -/
def withoutToggles (q : Query) : Query :=
  (q.erase "insecure").erase "allowInsecure"

/-- The first protocol of a list with commas between them that is not blank. -/
def firstProtocol? (list : String) : Option String :=
  (((list.toList.splitOn ',').map Text.trim).find? (!·.isEmpty)).map String.ofList

/-- Parameters with only the first application protocol, and none if there is no first one. -/
def withOneAlpn (q : Query) : Query :=
  match q.get? "alpn" with
  | none => q
  | some values =>
    match values.head?.bind firstProtocol? with
    | some protocol => q.insert "alpn" [protocol]
    | none => q.erase "alpn"

/-- The parameters that a rule sees: without a word on security there is none. -/
def policyParams (q : Query) : Params :=
  q.first.insertIfNew "security" "none"

/-- The canonical link of a URL. -/
def link (url : Url) : Except Rejection ShareLink := do
  if url.username.isEmpty || maxUuidLength < url.username.utf8ByteSize then
    throw .missingUuid
  let server ← readServer title url
  return {
    scheme := "vless"
    userinfo := url.username
    server
    path := url.path
    query := withOneAlpn (withoutToggles (Query.ofUrl url))
    fragment := url.fragment }

/-- Reads a line. -/
def draft (line : String) : Except Rejection Draft := do
  checkLength line
  let url ← readUrlOf "vless" title line
  let link ← link url
  return { label := label url, params := .ok (policyParams link.query), canonical := link.text }

end LinkSieve.Link.Vless
