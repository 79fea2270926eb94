import LinkSieve.Link.ShareLink

/-!
# Trojan links

`trojan://password@host:port?parameters#label`. A path is not passed on.
-/

namespace LinkSieve.Link.Trojan

/-- The title of the format in messages. -/
def title : String := "Trojan"

/-- The canonical link of a URL. -/
def link (url : Url) : Except Rejection ShareLink := do
  if url.username.isEmpty then throw .missingPassword
  let server ← readServer title url
  return {
    scheme := "trojan"
    userinfo := url.username
    server
    path := ""
    query := Query.ofUrl url
    fragment := url.fragment }

/-- Reads a line. -/
def draft (line : String) : Except Rejection Draft := do
  checkLength line
  let url ← readUrlOf "trojan" title line
  let link ← link url
  return { label := label url, params := .ok link.query.first, canonical := link.text }

end LinkSieve.Link.Trojan
