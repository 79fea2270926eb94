import LinkSieve.Toml.Reading

/-!
# Settings

What a run is told to do: where to read and write, what to check links against, and what the
output looks like. Settings are read from a TOML file in which every one may be left out; one that
is unknown is passed over.
-/

namespace LinkSieve

/-- What a run is told to do. -/
structure Settings where
  input : String := "-"
  output : Option String := none
  rejectedOutput : Option String := none
  rules : Option String := none
  bannedWords : Option String := none
  profileTitle : Option String := none
  updateHours : Nat := 1
  dedup : Bool := false
  workers : Nat := 0
deriving DecidableEq, Repr

namespace Settings

/-- A text. -/
def text? : Document → Option String
  | .scalar (.text s) _ => some s
  | _ => none

/-- A number that is not negative. -/
def count? : Document → Option Nat
  | .scalar (.int n) _ => if 0 ≤ n then some n.toNat else none
  | _ => none

/-- A truth value. -/
def flag? : Document → Option Bool
  | .scalar (.bool b) _ => some b
  | _ => none

/-- What `read` makes of an entry, or a default if the entry is left out. -/
def entry? {β : Type} (entries : List (String × Document)) (name : String) (default : β)
    (read : Document → Option β) : Option β :=
  match entries.lookup name with
  | some d => read d
  | none => some default

/-- Reads settings from the entries of a table. An interval of no hours counts as one hour. -/
def ofEntries? (entries : List (String × Document)) : Option Settings := do
  let optional (name : String) : Option (Option String) :=
    entry? entries name none fun d => (text? d).map some
  return {
    input := ← entry? entries "input" "-" text?
    output := ← optional "output"
    rejectedOutput := ← optional "rejected_output"
    rules := ← optional "rules"
    bannedWords := ← optional "banned_words"
    profileTitle := ← optional "profile_title"
    updateHours := max 1 (← entry? entries "update_interval_hours" 1 count?)
    dedup := ← entry? entries "dedup" false flag?
    workers := ← entry? entries "workers" 0 count? }

/-- Reads the text of a file of settings. -/
def read? (content : String) : Option Settings :=
  match Toml.read? content with
  | some (.table entries) => ofEntries? entries
  | _ => none

end Settings

end LinkSieve
