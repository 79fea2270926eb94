import LinkSieve.Text.Split
import LinkSieve.Url.Host

/-!
# Authorities of URLs

The part of a URL that says which server is meant: a user name and a password before the last at
sign, a host, and a port after a colon. A password that is empty and a port that the scheme
implies count as absent.
-/

namespace LinkSieve.Url

/-- The server a URL names and the credentials for it. -/
structure Authority where
  username : List Char
  password : Option (List Char)
  host : Option Host
  port : Option Nat
deriving DecidableEq, Repr

namespace Authority

/-- The user name and the password before the at sign. -/
def readUserinfo (cs : List Char) : List Char × Option (List Char) :=
  let escape := Text.Percent.encode Escaped.inUserinfo
  match Text.cutFirst? ':' cs with
  | none => (escape cs, none)
  | some (username, password) =>
    (escape username, if password.isEmpty then none else some (escape password))

/-- The text of the host and what follows it: a colon ends the host unless it stands in square
brackets. -/
def takeHost : Bool → List Char → List Char × List Char
  | _, [] => ([], [])
  | bracketed, c :: rest =>
    if c = ':' && !bracketed then ([], c :: rest)
    else
      let (host, after) := takeHost (c = '[' || (bracketed && c ≠ ']')) rest
      (c :: host, after)

/-- Reads the host; only a scheme that is none of the web's may leave it out. -/
def readHost (web : Bool) (cs : List Char) : Except ParseError (Option Host) :=
  if web then
    if cs.isEmpty then .error .emptyHost else (Host.readWeb cs).map some
  else if cs.isEmpty then .ok none
  else (Host.readOpaque cs).map some

/-- Reads the digits of a port, and gives what follows them: nothing, or a path that starts with a
backslash. -/
def readPort (implied : Option Nat) (cs : List Char) :
    Except ParseError (Option Nat × List Char) :=
  let digits := cs.takeWhile (Decimal.isDigit 10)
  let after := cs.dropWhile (Decimal.isDigit 10)
  let port := Decimal.ofDigits 10 digits
  if 65535 < port || !(after.isEmpty || after.head? = some '\\') then .error .badPort
  else .ok (if digits.isEmpty || some port = implied then none else some port, after)

/-- Reads the host and the port. -/
def readServer (web : Bool) (implied : Option Nat) (cs : List Char) :
    Except ParseError (Option Host × Option Nat × List Char) := do
  let (hostText, after) := takeHost false cs
  let host ← readHost web hostText
  match after with
  | ':' :: digits =>
    if host.isNone then throw .emptyHost
    let (port, more) ← readPort implied digits
    return (host, port, more)
  | _ => return (host, none, after)

/-- Reads an authority; `last` says that nothing follows it. Gives what the authority does not
take, which belongs to the path. -/
def read (web : Bool) (implied : Option Nat) (last : Bool) (cs : List Char) :
    Except ParseError (Authority × List Char) := do
  let (userinfo, serverText) :=
    match Text.cutLast? '@' cs with
    | some (before, after) => (some before, after)
    | none => (none, cs)
  if userinfo = some [] && serverText.isEmpty && !last then throw .emptyHost
  let (username, password) := readUserinfo (userinfo.getD [])
  let (host, port, more) ← readServer web implied serverText
  if host.isNone && (!username.isEmpty || password.isSome) then throw .emptyHost
  return ({ username, password, host, port }, more)

end Authority

end LinkSieve.Url
