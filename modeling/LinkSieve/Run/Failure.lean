import LinkSieve.Text.Quoted

/-!
# Failures of a run

What can keep a run from its end, and the wording of it.
-/

namespace LinkSieve.Run

/-- What keeps a run from its end. -/
inductive Failure where
  | settingsUnreadable (path : String)
  | settingsInvalid
  | rulesUnreadable (path : String)
  | rulesInvalid (path : String)
  | wordsUnreadable (path : String)
  | subscriptionUnreadable (path : String)
  | inputUnreadable
  | directoryNotMade (path : String)
  | fileNotWritten (path : String)
  | fileNotMoved (path : String)
  | fileNotRemoved (path : String)
  | outputNotWritten
deriving DecidableEq, Repr

/-- The wording of a failure. -/
def Failure.message : Failure → String
  | settingsUnreadable path => "Failed to read filter config from " ++ Text.quotedPath path
  | settingsInvalid => "Failed to parse filter config TOML"
  | rulesUnreadable path => "Failed to read rules file " ++ Text.quotedPath path
  | rulesInvalid path => "Invalid rules file " ++ Text.quotedPath path
  | wordsUnreadable path => "Failed to read banned words file " ++ Text.quotedPath path
  | subscriptionUnreadable path => "Failed to read subscription from " ++ Text.quoted path
  | inputUnreadable => "Failed to read subscription from stdin"
  | directoryNotMade path => "Failed to create output directory " ++ Text.quotedPath path
  | fileNotWritten path => "Failed to write " ++ Text.quotedPath path
  | fileNotMoved path => "Failed to move output into place at " ++ Text.quotedPath path
  | fileNotRemoved path => "Failed to remove " ++ Text.quotedPath path
  | outputNotWritten => "Failed to write to stdout"

end LinkSieve.Run
