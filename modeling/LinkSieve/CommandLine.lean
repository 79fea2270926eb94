import LinkSieve.Run.Filtering

/-!
# Command line

What the program does with the arguments it is started with, and the code it ends with.
-/

namespace LinkSieve.CommandLine

open Run (Failure Surroundings)

/-- The version of the program. -/
def version : String := "0.2.0"

/-- What the program answers when it is asked for its version. -/
def versionText : String := "sub-filter " ++ version ++ "\n"

/-- What the program answers when it is asked how it is used. -/
def helpText : String :=
  String.intercalate "\n" [
    "Filter public proxy subscriptions into canonical, policy-compliant links",
    "",
    "Usage: sub-filter [OPTIONS]",
    "",
    "Options:",
    "  -c, --config <CONFIG>              Filter config file (TOML)",
    "  -i, --input <INPUT>                Subscription file to filter, `-` for stdin",
    "  -o, --output <OUTPUT>              Output path for accepted links, stdout if omitted",
    "  -r, --rejected <REJECTED>          Output path for rejected lines with reasons",
    "      --rules <RULES>                Protocol rules file (YAML, JSON or TOML)",
    "      --banned-words <BANNED_WORDS>  Banned words file, one term per line",
    "  -v, --verbose                      Emit debug log",
    "  -h, --help                         Print help",
    "  -V, --version                      Print version",
    ""]

/-- How the program ends. -/
inductive Ending where
  | done
  | failed (failure : Failure)
  | misused (error : UsageError)
deriving DecidableEq, Repr

/-- The code that the program ends with. -/
def Ending.code : Ending → UInt8
  | .done => 0
  | .failed _ => 1
  | .misused _ => 2

/-- What is said about an ending that is no success. -/
def Ending.complaint? : Ending → Option String
  | .done => none
  | .failed failure => some ("Error: " ++ failure.message)
  | .misused error => some ("error: " ++ error.message)

variable {m : Type → Type} [Monad m]

/-- Prints an answer of the program about itself. -/
def answer (s : Surroundings m) (text : String) : m Ending := do
  if ← s.print text then return .done else return .failed .outputNotWritten

/-- Runs the program with given arguments. -/
def execute (s : Surroundings m) (args : List String) : m Ending := do
  match Arguments.read args with
  | .error .helpWanted => answer s helpText
  | .error .versionWanted => answer s versionText
  | .error error => return .misused error
  | .ok args =>
    match ← (s.run args).run with
    | .ok _ => return .done
    | .error failure => return .failed failure

end LinkSieve.CommandLine
