import LinkSieve.Settings
import LinkSieve.Text.Split

/-!
# Command line arguments

The options of the command line. An option has a long name and mostly a short one; its value
follows as the next argument or is attached to it. Short options may be written together behind
one hyphen. An option is given at most once, and no argument stands for itself.

## Implementation notes

An option with its value stays pending until the next option or the end, so a fault of a later
argument that is no option at all is reported before a repetition of the pending one.
-/

namespace LinkSieve

/-- The options of the command line, each with its value if it is given. -/
structure Arguments where
  config : Option String := none
  input : Option String := none
  output : Option String := none
  rejected : Option String := none
  rules : Option String := none
  bannedWords : Option String := none
  verbose : Bool := false
deriving DecidableEq, Repr

/-- Why a command line does not start a run. -/
inductive UsageError where
  | unknownArgument
  | missingValue
  | repeated
  | unwantedValue
  | helpWanted
  | versionWanted
deriving DecidableEq, Repr

/-- The wording of a reason. -/
def UsageError.message : UsageError → String
  | unknownArgument => "unexpected argument"
  | missingValue => "a value is required"
  | repeated => "an option cannot be used multiple times"
  | unwantedValue => "an option does not take a value"
  | helpWanted => "help requested"
  | versionWanted => "version requested"

namespace Arguments

/-- An option with a value. -/
inductive Setting where
  | config
  | input
  | output
  | rejected
  | rules
  | bannedWords
deriving DecidableEq, Repr

/-- An option of either sort. -/
inductive Switch where
  | setting (s : Setting)
  | verbose
  | help
  | version
deriving DecidableEq, Repr

/-- The option with a given long name. -/
def ofLongName? (name : List Char) : Option Switch :=
  match String.ofList name with
  | "config" => some (.setting .config)
  | "input" => some (.setting .input)
  | "output" => some (.setting .output)
  | "rejected" => some (.setting .rejected)
  | "rules" => some (.setting .rules)
  | "banned-words" => some (.setting .bannedWords)
  | "verbose" => some .verbose
  | "help" => some .help
  | "version" => some .version
  | _ => none

/-- The option with a given short name. -/
def ofShortName? (name : Char) : Option Switch :=
  match name with
  | 'c' => some (.setting .config)
  | 'i' => some (.setting .input)
  | 'o' => some (.setting .output)
  | 'r' => some (.setting .rejected)
  | 'v' => some .verbose
  | 'h' => some .help
  | 'V' => some .version
  | _ => none

/-- The value of an option. -/
def get? (a : Arguments) : Setting → Option String
  | .config => a.config
  | .input => a.input
  | .output => a.output
  | .rejected => a.rejected
  | .rules => a.rules
  | .bannedWords => a.bannedWords

/-- The arguments with a value of an option. -/
def set (a : Arguments) (s : Setting) (value : String) : Arguments :=
  match s with
  | .config => { a with config := some value }
  | .input => { a with input := some value }
  | .output => { a with output := some value }
  | .rejected => { a with rejected := some value }
  | .rules => { a with rules := some value }
  | .bannedWords => { a with bannedWords := some value }

/-- The state of reading: the options that are settled, and the pending one with its value if it
has been seen. -/
structure State where
  settled : Arguments := {}
  pending : Option (Setting × Option String) := none
deriving DecidableEq, Repr

/-- Settles the value of an option. -/
def settle (a : Arguments) (s : Setting) (value : String) : Except UsageError Arguments :=
  if (a.get? s).isSome then .error .repeated else .ok (a.set s value)

/-- Settles the pending option. -/
def State.settle (state : State) : Except UsageError Arguments :=
  match state.pending with
  | none => .ok state.settled
  | some (_, none) => .error .missingValue
  | some (s, some value) => state.settled.settle s value

/-- Takes an option without a value. -/
def State.turnOn (state : State) (s : Switch) : Except UsageError State := do
  let a ← state.settle
  match s with
  | .help => throw .helpWanted
  | .version => throw .versionWanted
  | .verbose =>
    if a.verbose then throw .repeated else return { settled := { a with verbose := true } }
  | .setting s => return { settled := a, pending := some (s, none) }

/-- Takes an option with the value attached to it. -/
def State.attach (state : State) (s : Setting) (value : String) : Except UsageError State := do
  let a ← state.settle
  return { settled := ← a.settle s value }

/-- Takes a long option after its hyphens. -/
def State.readLong (state : State) (cs : List Char) : Except UsageError State :=
  let (name, value) := Text.cutOption '=' cs
  match ofLongName? name, value with
  | none, _ => .error .unknownArgument
  | some (.setting s), some value => state.attach s (String.ofList value)
  | some _, some _ => .error .unwantedValue
  | some s, none => state.turnOn s

/-- Takes short options written together. The first one with a value takes what is left, less an
equals sign at the front. -/
def State.readShort (state : State) : List Char → Except UsageError State
  | [] => .ok state
  | c :: rest =>
    match ofShortName? c with
    | none => .error .unknownArgument
    | some (.setting s) =>
      match rest with
      | [] => state.turnOn (.setting s)
      | '=' :: value => state.attach s (String.ofList value)
      | value => state.attach s (String.ofList value)
    | some s => do
      let state ← state.turnOn s
      state.readShort rest

/-- Takes an argument that is no option: the value that an option waits for. -/
def State.readValue (state : State) (value : String) : Except UsageError State :=
  match state.pending with
  | some (s, none) => .ok { state with pending := some (s, some value) }
  | _ => .error .unknownArgument

/-- Takes the arguments one after the other. After two hyphens nothing is an option any more. -/
def readFrom (state : State) : List String → Except UsageError Arguments
  | [] => state.settle
  | arg :: rest =>
    match arg.toList with
    | ['-', '-'] => if rest.isEmpty then state.settle else .error .unknownArgument
    | '-' :: '-' :: long => do readFrom (← state.readLong long) rest
    | '-' :: c :: short => do readFrom (← state.readShort (c :: short)) rest
    | _ => do readFrom (← state.readValue arg) rest

/-- Reads the arguments that follow the name of the program. -/
def read (args : List String) : Except UsageError Arguments :=
  readFrom {} args

/-- The settings with what the command line gives in place of what they say. -/
def applyTo (a : Arguments) (s : Settings) : Settings :=
  { s with
    input := a.input.getD s.input
    output := a.output <|> s.output
    rejectedOutput := a.rejected <|> s.rejectedOutput
    rules := a.rules <|> s.rules
    bannedWords := a.bannedWords <|> s.bannedWords }

end Arguments

end LinkSieve
