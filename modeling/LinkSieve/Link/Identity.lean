import LinkSieve.Url.Query

/-!
# Identity of links

Two links lead to the same place if they agree in scheme, host, port, path and parameters.
Credentials and label make no difference, nor do the order of parameters and values of a parameter
after its first.
-/

namespace LinkSieve.Link

/-- Why a link has no identity. -/
inductive IdentityError where
  | badUrl (cause : Url.ParseError)
  | noHost
deriving DecidableEq, Repr

/-- The wording of an error. -/
def IdentityError.message : IdentityError → String
  | .badUrl cause => "failed to parse URL: " ++ cause.message
  | .noHost => "URL has no host"

/-- Where a link leads. -/
structure Identity where
  scheme : String
  host : String
  port : Option Nat
  path : String
  params : Params
deriving DecidableEq, Repr

namespace Identity

/-- The port that a scheme of the web implies. -/
def impliedPort? (scheme : String) : Option Nat :=
  match scheme with
  | "https" => some 443
  | "http" => some 80
  | _ => none

/-- Where a URL leads. A path of one slash counts as none. -/
def ofUrl (url : Url) : Except IdentityError Identity :=
  match url.host with
  | none => .error .noHost
  | some host =>
    .ok {
      scheme := url.scheme
      host := String.ofList (Text.lower host.text.toList)
      port := url.port <|> impliedPort? url.scheme
      path := if url.path = "/" then "" else url.path
      params := (Query.ofUrl url).first }

/-- Where the link on a line leads. -/
def ofLine (line : String) : Except IdentityError Identity :=
  match Url.read line with
  | .ok url => ofUrl url
  | .error cause => .error (.badUrl cause)

/-- A parameter as part of a key. -/
def paramText (param : String × String) : String :=
  param.1 ++ "=" ++ param.2

/-- The key of an identity: its parts in one text, the parameters in the order of names. -/
def key (id : Identity) : String :=
  let port := match id.port with
    | some port => ":" ++ toString port
    | none => ""
  let query := String.intercalate "&" (id.params.entries.map paramText)
  id.scheme ++ "://" ++ id.host ++ port ++ id.path ++
    (if query.isEmpty then "" else "?" ++ query)

end Identity

/-- The key of the link on a line. -/
def identityKey (line : String) : Except IdentityError String :=
  (Identity.ofLine line).map Identity.key

end LinkSieve.Link
