import LinkSieve.Address.Server
import LinkSieve.Link.Draft
import LinkSieve.Url.Query

/-!
# Share links

The common form of the links whose format is a URL: a scheme, credentials, a server, and
optionally a path, parameters and a fragment. Here are the checks that all of them share and the
canonical text, in which parameters stand in the order of names.
-/

namespace LinkSieve.Link

/-- The longest line that is read, in bytes. -/
def maxLineLength : Nat := 4096

/-- Rejects a line that is too long. -/
def checkLength (line : String) : Except Rejection Unit :=
  if maxLineLength < line.utf8ByteSize then .error .lineTooLong else .ok ()

/-- What follows a scheme, in letters of either case, and its colon and slashes. -/
def afterScheme? (scheme line : List Char) : Option (List Char) :=
  let start := line.take scheme.length
  if start.map Text.lowerAscii = scheme.map Text.lowerAscii then
    Text.dropPrefix? "://".toList (line.drop scheme.length)
  else none

/-- What follows the scheme of a line. -/
def stripScheme? (line scheme : String) : Option String :=
  (afterScheme? scheme.toList line.toList).map String.ofList

/-- Whether a line starts with a scheme, in letters of either case. -/
def hasScheme (line scheme : String) : Bool :=
  (stripScheme? line scheme).isSome

/-- Whether the port written in the authority of a line is a number too great for a port. It is
looked for in the text itself, which need not be a URL. -/
def portOverflows (line : List Char) : Bool :=
  match cutSlashes line with
  | none => false
  | some rest =>
    let authority := rest.takeWhile fun c => !(c = '/' || c = '?' || c = '#')
    let server := match Text.cutLast? '@' authority with
      | some (_, server) => server
      | none => authority
    match Text.cutLast? ':' server with
    | none => false
    | some (host, port) =>
      if host.head? = some '[' && host.getLast? ≠ some ']' then false
      else match Decimal.readNat? 10 port with
        | some n => 65535 < n
        | none => false
where
  /-- What follows the first `://`. -/
  cutSlashes : List Char → Option (List Char)
    | [] => none
    | c :: rest =>
      match Text.dropPrefix? "://".toList (c :: rest) with
      | some after => some after
      | none => cutSlashes rest

/-- Reads a line as a URL of any scheme. -/
def readUrl (title line : String) : Except Rejection Url :=
  match Url.read line with
  | .ok url => .ok url
  | .error _ =>
    .error (if portOverflows line.toList then .portOutOfRange title else .badUrl title)

/-- Reads a line as a URL of a given scheme. -/
def readUrlOf (scheme title line : String) : Except Rejection Url := do
  let url ← readUrl title line
  if url.scheme ≠ scheme then throw (.wrongScheme title)
  return url

/-- The text of the host of a URL, without square brackets. -/
def hostText? (url : Url) : Option String :=
  match url.host with
  | some (.name text) => if text.isEmpty then none else some text
  | some (.ipv4 ip) => some (String.ofList ip.text)
  | some (.ipv6 ip) => some (String.ofList ip.text)
  | none => none

/-- The server of a URL, which has to be complete and well formed. -/
def readServer (title : String) (url : Url) : Except Rejection Address.Server :=
  match hostText? url with
  | none => .error (.missingHost title)
  | some host =>
    match url.port with
    | none => .error (.missingPort title)
    | some port =>
      if !Address.isPort port then .error (.portOutOfRange title)
      else if !Address.isHost host.toList then .error (.badHost title)
      else .ok ⟨host, port⟩

/-- A link by its parts, as they stand in its text. -/
structure ShareLink where
  scheme : String
  userinfo : String
  server : Address.Server
  path : String
  query : Query
  fragment : Option String
deriving DecidableEq, Repr

/-- The canonical text of a link. An empty query and an empty fragment are left out. -/
def ShareLink.chars (link : ShareLink) : List Char :=
  link.scheme.toList ++ "://".toList ++ link.userinfo.toList ++ '@' :: link.server.text ++
    link.path.toList ++
    (if link.query.isEmpty then [] else '?' :: link.query.text) ++
    (match link.fragment with
      | some f => if f.isEmpty then [] else '#' :: f.toList
      | none => [])

/-- The canonical text of a link. -/
def ShareLink.text (link : ShareLink) : String :=
  String.ofList link.chars

/-- The label of a URL. -/
def label (url : Url) : String :=
  url.fragment.getD ""

end LinkSieve.Link
