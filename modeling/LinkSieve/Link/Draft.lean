import LinkSieve.Link.Rejection
import LinkSieve.Policy.RuleSet
import LinkSieve.Policy.Words

/-!
# Drafts and screens

A format reads a line into a draft: its label, its parameters and its canonical text. What the
user configured only decides whether a draft is accepted, and never what it says. The checks run
in this order: what the format needs to make a draft, the banned words on the label, what the
format demands of its parameters, and the rule.
-/

namespace LinkSieve.Link

/-- A line as its format understands it. The parameters are missing if the format itself objects
to them. -/
structure Draft where
  label : String
  params : Except Rejection (Table String)
  canonical : String

/-- What links of one protocol are checked against. -/
structure Screen where
  rule : Option Policy.Rule
  words : Policy.WordList
deriving DecidableEq, Repr

namespace Screen

/-- The screen that every link passes. -/
def pass : Screen := ⟨none, .empty⟩

/-- A screen with a rule and banned words. -/
def ofRule (rule : Policy.Rule) (words : Policy.WordList) : Screen := ⟨some rule, words⟩

/-- The screen for a protocol. A rule that says nothing is no rule. -/
def forProtocol (rules : Policy.RuleSet) (protocol : String) (words : Policy.WordList) : Screen :=
  ⟨(rules.get? protocol).filter (!·.isEmpty), words⟩

/-- Rejects a label with a banned word in it. -/
def checkLabel (screen : Screen) (label : String) : Except Rejection Unit :=
  match screen.words.find? label with
  | some word => .error (.bannedWord word)
  | none => .ok ()

/-- Rejects parameters that the rule objects to. -/
def enforce (screen : Screen) (title : String) (params : Table String) : Except Rejection Unit :=
  match screen.rule.bind (·.violation? params) with
  | some v => .error (.violation title v)
  | none => .ok ()

/-- The canonical text of a draft that passes. -/
def judge (screen : Screen) (title : String) (draft : Draft) : Except Rejection String := do
  screen.checkLabel draft.label
  let params ← draft.params
  screen.enforce title params
  return draft.canonical

end Screen

end LinkSieve.Link
