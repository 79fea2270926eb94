import LinkSieve.Text.Blank
import LinkSieve.Url.Authority
import LinkSieve.Url.Path

/-!
# URLs

Reading a text as a URL. Blank ends and line breaks within the text are passed over. What follows
the scheme depends on the scheme: a web address always names a server, a file may, and any other
URL does if two slashes follow the scheme. Parts are kept in their escaped form.

## Implementation notes

The text is cut before it is interpreted: the fragment starts at the first `#`, the query at the
first `?` before it, the path at the first slash after the authority. Each part is then read on
its own.
-/

namespace LinkSieve

/-- A URL by its parts. A part that may be absent is told apart from an empty one. -/
structure Url where
  scheme : String
  username : String := ""
  password : Option String := none
  host : Option Url.Host := none
  port : Option Nat := none
  path : String := ""
  query : Option String := none
  fragment : Option String := none
deriving DecidableEq, Repr

namespace Url

/-- What a scheme says about the form of a URL. -/
inductive SchemeKind where
  | web (impliedPort : Nat)
  | file
  | other
deriving DecidableEq, Repr

/-- The kind of a lower-case scheme. -/
def SchemeKind.ofScheme (scheme : List Char) : SchemeKind :=
  match String.ofList scheme with
  | "http" | "ws" => .web 80
  | "https" | "wss" => .web 443
  | "ftp" => .web 21
  | "file" => .file
  | _ => .other

/-- A text without the characters that a URL passes over: control characters and spaces at either
end, tabs and line breaks anywhere. -/
def clean (cs : List Char) : List Char :=
  (Text.trimBy (·.toNat ≤ 0x20) cs).filter fun c => !(c = '\t' || c = '\n' || c = '\r')

/-- Whether a character continues a scheme. -/
def isSchemeChar (c : Char) : Bool :=
  c.isAlphanum || c = '+' || c = '-' || c = '.'

/-- The scheme in lower case, and what follows its colon. -/
def cutScheme? (cs : List Char) : Option (List Char × List Char) :=
  match cs with
  | c :: _ =>
    if !c.isAlpha then none
    else match cs.dropWhile isSchemeChar with
      | ':' :: rest => some ((cs.takeWhile isSchemeChar).map Text.lowerAscii, rest)
      | _ => none
  | [] => none

/-- The path, the query and the fragment of what follows the authority. -/
def cutTail (cs : List Char) : List Char × Option (List Char) × Option (List Char) :=
  let (front, fragment) := Text.cutOption '#' cs
  let (path, query) := Text.cutOption '?' front
  (path, query, fragment)

/-- Whether a character ends an authority; under a web scheme a backslash does too. -/
def endsAuthority (web : Bool) (c : Char) : Bool :=
  c = '/' || c = '?' || c = '#' || (web && c = '\\')

/-- A text with slashes for backslashes. -/
def slashed (cs : List Char) : List Char :=
  cs.map fun c => if c = '\\' then '/' else c

/-- A URL without query and fragment, with those added in escaped form. -/
def withTail (url : Url) (web : Bool) (query fragment : Option (List Char)) : Url :=
  { url with
    query := query.map fun q => String.ofList (Text.Percent.encode (Escaped.inQuery web) q)
    fragment := fragment.map fun f => String.ofList (Text.Percent.encode Escaped.inFragment f) }

/-- A URL with the parts of an authority. -/
def withAuthority (url : Url) (a : Authority) : Url :=
  { url with
    username := String.ofList a.username
    password := a.password.map String.ofList
    host := a.host
    port := a.port }

/-- The path after an authority: empty if nothing stands there. -/
def otherPath (cs : List Char) : List Char :=
  match cs with
  | [] => []
  | '/' :: rest => Path.normalize rest
  | cs => Path.normalize cs

/-- The path of a web address, which is never empty. -/
def webPath (cs : List Char) : List Char :=
  match slashed cs with
  | '/' :: rest => Path.normalize rest
  | cs => Path.normalize cs

/-- Reads a URL that starts with an authority. -/
def readServed (scheme : List Char) (implied : Option Nat) (cs : List Char) :
    Except ParseError Url := do
  let web := implied.isSome
  let front := cs.takeWhile (!endsAuthority web ·)
  let back := cs.dropWhile (!endsAuthority web ·)
  let (authority, more) ← Authority.read web implied back.isEmpty front
  let (path, query, fragment) := cutTail (more ++ back)
  let path := if web then webPath path else otherPath path
  let url : Url := { scheme := String.ofList scheme, path := String.ofList path }
  return (url.withAuthority authority).withTail web query fragment

/-- Reads a URL that names no server: its path starts with a slash or is opaque. -/
def readUnserved (scheme cs : List Char) : Url :=
  let (path, query, fragment) := cutTail cs
  let path := match path with
    | '/' :: rest => Path.normalize rest
    | path => Text.Percent.encode Escaped.always path
  let url : Url := { scheme := String.ofList scheme, path := String.ofList path }
  url.withTail false query fragment

/-- The host before the path of a file, and the path without its first slash. A drive is no host,
and the local host is none. -/
def readFileHost (path : List Char) : Except ParseError (Option Host × List Char) :=
  match path with
  | '/' :: '/' :: rest =>
    let hostText := rest.takeWhile (· ≠ '/')
    if Path.isDrive hostText then .ok (none, rest)
    else
      let after := (rest.dropWhile (· ≠ '/')).drop 1
      if hostText.isEmpty then .ok (none, after)
      else match Host.readWeb hostText with
        | .ok (.name "localhost") => .ok (none, after)
        | .ok host => .ok (some host, after)
        | .error e => .error e
  | '/' :: rest => .ok (none, rest)
  | path => .ok (none, path)

/-- Reads the URL of a file. -/
def readFile (scheme cs : List Char) : Except ParseError Url := do
  let (path, query, fragment) := cutTail cs
  let (host, path) ← readFileHost (slashed path)
  let host := if Path.startsWithDrive path then none else host
  let url : Url :=
    { scheme := String.ofList scheme, host, path := String.ofList (Path.normalizeFile path) }
  return url.withTail true query fragment

/-- Reads a text as a URL. -/
def read (text : String) : Except ParseError Url :=
  match cutScheme? (clean text.toList) with
  | none => .error .noScheme
  | some (scheme, rest) =>
    match SchemeKind.ofScheme scheme with
    | .web port => readServed scheme (some port) (rest.dropWhile fun c => c = '/' || c = '\\')
    | .file => readFile scheme rest
    | .other =>
      match rest with
      | '/' :: '/' :: rest => readServed scheme none rest
      | rest => .ok (readUnserved scheme rest)

end Url

end LinkSieve
