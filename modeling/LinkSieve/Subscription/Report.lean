import LinkSieve.Link.Dedup
import LinkSieve.Link.Dispatcher
import LinkSieve.Subscription.Body

/-!
# Reports

What became of the lines of a subscription: the canonical links that were accepted, and the lines
that were rejected, each with its reason. Who judges the lines is left open. Both lists have a text:
the accepted links as a subscription, if wanted under a header with a title, and the rejected lines
with their reasons as comments.
-/

namespace LinkSieve.Subscription

/-- A line that was rejected, unchanged, with the reason. -/
structure RejectedLine where
  reason : String
  line : String
deriving DecidableEq, Repr

/-- The accepted links and the rejected lines, each in the order of the lines they come from. -/
structure Report where
  accepted : List String
  rejected : List RejectedLine
deriving DecidableEq, Repr

namespace Report

variable {ε : Type} [Link.Refusal ε]

/-- The report without lines. -/
def empty : Report := ⟨[], []⟩

/-- A report with the outcome of one line before it. -/
def cons (line : String) (outcome : Except ε String) (report : Report) : Report :=
  match outcome with
  | .ok link => { report with accepted := link :: report.accepted }
  | .error e => { report with rejected := ⟨Link.Refusal.reason e, line⟩ :: report.rejected }

/-- The report on lines, each judged on its own. -/
def ofLines (judge : String → Except ε String) (lines : List String) : Report :=
  lines.foldr (fun line report => report.cons line (judge line)) empty

/-- The report on a body. Duplicates are dropped after all lines have been judged. -/
def ofBody (judge : String → Except ε String) (dedup : Bool) (body : List UInt8) : Report :=
  let report := ofLines judge (candidates body)
  if dedup then { report with accepted := Link.dedup report.accepted } else report

/-- The rejected lines as text, each under a comment with its reason. -/
def rejectedText (report : Report) : String :=
  String.intercalate "\n" (report.rejected.map fun r => "# REASON: " ++ r.reason ++ "\n" ++ r.line)

end Report

/-- Whether a character may stand in a title. -/
def isTitleChar (c : Char) : Bool :=
  c.isAlphanum || c = '.' || c = '_' || c = '-'

/-- A title with an underscore for each character that may not stand in one. -/
def cleanTitle (title : String) : String :=
  String.ofList (title.toList.map fun c => if isTitleChar c then c else '_')

/-- The header of a subscription: its title, the hours between updates, and a blank line. -/
def header (title : String) (hours : Nat) : List String :=
  ["#profile-title: " ++ cleanTitle title, "#profile-update-interval: " ++ toString (max hours 1),
    ""]

/-- Links as a subscription, under a header if there is a title. -/
def render (links : List String) (title : Option String) (hours : Nat) : String :=
  let head := match title with
    | some title => header title hours
    | none => []
  String.intercalate "\n" (head ++ links)

end LinkSieve.Subscription
