import LinkSieve.Link.Identity
import LinkSieve.Link.ShareLink

/-!
# Duplicate links

Of the links that lead to the same place one is kept, in the place of the first: the one that says
most about the security of its transport, and of equals the one that came first.

## Implementation notes

The links kept so far are a list of slots with their keys. A link either fills a new slot at the
end or challenges the link in the slot of its key.
-/

namespace LinkSieve.Link

/-- The text that a line shares with its duplicates. The payload of a VMess link is opaque, so
such a line, like one without an identity, has only exact copies as duplicates. -/
def dedupKey (line : String) : String :=
  if hasScheme line "vmess" then line
  else match identityKey line with
    | .ok key => key
    | .error _ => line

/-- How much a URL says about the security of its transport: one point for each parameter, fifty
for a security other than none, and ten for naming a `tls`. -/
def securityScore (url : Url) : Nat :=
  let params := (Query.ofUrl url).first
  let security := (params.get? "security").getD ""
  let isSecure := !security.isEmpty && security.toList.map Text.lowerAscii ≠ "none".toList
  let namesTls := !((params.get? "tls").getD "").isEmpty
  params.size + (if isSecure then 50 else 0) + (if namesTls then 10 else 0)

/-- The score of a line that is a URL. -/
def score? (line : String) : Option Nat :=
  match Url.read line with
  | .ok url => some (securityScore url)
  | .error _ => none

/-- The better of two duplicates: a line that is no URL loses, a higher score wins, and the one
that is there already is kept if both are equal. -/
def better (current existing : String) : String :=
  match score? current, score? existing with
  | none, _ => existing
  | some _, none => current
  | some new, some old => if old < new then current else existing

/-- The slots after one more line with a given key. -/
def place (key line : String) : List (String × String) → List (String × String)
  | [] => [(key, line)]
  | (k, kept) :: rest =>
    if k = key then (k, better line kept) :: rest else (k, kept) :: place key line rest

/-- One line for each key, in the order in which the keys come up first. -/
def dedup (lines : List String) : List String :=
  (lines.foldl (fun slots line => place (dedupKey line) line slots) []).map (·.2)

end LinkSieve.Link
