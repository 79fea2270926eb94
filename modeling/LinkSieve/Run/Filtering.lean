import LinkSieve.Arguments
import LinkSieve.Policy.RuleFile
import LinkSieve.Run.Failure
import LinkSieve.Run.Surroundings
import LinkSieve.Subscription.Report

/-!
# Filtering runs

A run reads its settings, the rules and the banned words, filters a subscription, and writes the
accepted links and the rejected lines. Nothing is written before everything has been read. A file
is written under a name of its own at first and then moved to where it belongs, so that at no time
half of it is there; a file of rejected lines that is out of date is removed.
-/

namespace LinkSieve.Run

open Subscription (Report)

/-- What a run has to show: the report and the text of the accepted links. -/
structure Finished where
  report : Report
  output : String
deriving DecidableEq, Repr

/-- The path that stands for the standard input. -/
def standardInput : String := "-"

/-- The report on a body under settings, rules and banned words, with its text. -/
def filter (settings : Settings) (rules : Policy.RuleSet) (words : Policy.WordList)
    (body : List UInt8) : Finished :=
  let report := Report.ofBody (Link.Dispatcher.ofRules rules words).process settings.dedup body
  ⟨report, Subscription.render report.accepted settings.profileTitle settings.updateHours⟩

/-- The path under which a file is written before it is moved to its own. -/
def draftPath (path : String) : String := path ++ ".tmp"

namespace Surroundings

variable {m : Type → Type} [Monad m] (s : Surroundings m)

/-- A path with the home directory put in. -/
def expand (path : String) : ExceptT Failure m String := do
  return Files.Path.expandHome (← s.home) path

/-- The text of a file. -/
def readText (path : String) (failure : Failure) : ExceptT Failure m String := do
  match (← s.readFile path).bind Text.Utf8.decode? with
  | some cs => return String.ofList cs
  | none => throw failure

/-- The settings in a file, or the default ones. -/
def settings (path : Option String) : ExceptT Failure m Settings := do
  match path with
  | none => return {}
  | some path =>
    let path ← s.expand path
    match Settings.read? (← s.readText path (.settingsUnreadable path)) with
    | some settings => return settings
    | none => throw .settingsInvalid

/-- The rules in a file, or none. -/
def rules (path : Option String) : ExceptT Failure m Policy.RuleSet := do
  match path with
  | none => return .empty
  | some path =>
    let path ← s.expand path
    let content ← s.readText path (.rulesUnreadable path)
    match Policy.RuleFile.read? (.ofPath path) content with
    | some rules => return rules
    | none => throw (.rulesInvalid path)

/-- The banned words in a file, or none. -/
def words (path : Option String) : ExceptT Failure m Policy.WordList := do
  match path with
  | none => return .empty
  | some path =>
    let path ← s.expand path
    return Policy.WordList.read (← s.readText path (.wordsUnreadable path))

/-- The subscription at a path. -/
def subscription (path : String) : ExceptT Failure m (List UInt8) := do
  if path = standardInput then
    match ← s.readInput with
    | some body => return body
    | none => throw .inputUnreadable
  else
    let path ← s.expand path
    match ← s.readFile path with
    | some body => return body
    | none => throw (.subscriptionUnreadable path)

/-- Asks for something that has to be done. -/
def need (action : m Bool) (failure : Failure) : ExceptT Failure m Unit := do
  unless ← action do throw failure

/-- Writes a file under its draft path, in a directory that is made if need be, and moves it to its
own path. -/
def place (path text : String) : ExceptT Failure m Unit := do
  match Files.Path.parent? path with
  | some "" | none => pure ()
  | some parent => need (s.ensureDirectory parent) (.directoryNotMade parent)
  need (s.writeFile (draftPath path) (Text.Utf8.encode text.toList))
    (.fileNotWritten (draftPath path))
  need (s.moveFile (draftPath path) path) (.fileNotMoved path)

/-- Removes a file that may be there. -/
def discard (path : String) : ExceptT Failure m Unit := do
  match ← s.removeFile path with
  | .failed => throw (.fileNotRemoved path)
  | .removed | .absent => pure ()

/-- Writes the accepted links where the settings say. -/
def writeOutput (path : Option String) (text : String) : ExceptT Failure m Unit := do
  match path with
  | some path => s.place (← s.expand path) text
  | none => need (s.print (text ++ "\n")) .outputNotWritten

/-- Writes the rejected lines if the settings say where; without any, what is there is removed. -/
def writeRejected (path : Option String) (report : Report) : ExceptT Failure m Unit := do
  match path with
  | none => pure ()
  | some path =>
    let path ← s.expand path
    if report.rejected.isEmpty then s.discard path else s.place path report.rejectedText

/-- A run under given arguments. -/
def run (args : Arguments) : ExceptT Failure m Finished := do
  let settings := args.applyTo (← s.settings args.config)
  let rules ← s.rules settings.rules
  let words ← s.words settings.bannedWords
  let body ← s.subscription settings.input
  let finished := filter settings rules words body
  s.writeOutput settings.output finished.output
  s.writeRejected settings.rejectedOutput finished.report
  return finished

end Surroundings

end LinkSieve.Run
