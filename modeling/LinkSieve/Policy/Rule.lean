import LinkSieve.Table
import LinkSieve.Text.Quoted

/-!
# Rules

A rule says which parameters a link must carry, which values they may and may not take, and which
parameters become necessary once others have given values. A rule sees a link only as a table of
names and values. What it objects to first, in this order and by name within each kind, is the
violation it reports.
-/

namespace LinkSieve.Policy

/-- When every parameter named has the value given for it, the required ones must be there. -/
structure Condition where
  when : Table String := .empty
  required : List String := []
deriving DecidableEq, Repr

/-- What the parameters of a link have to satisfy. An empty value counts as a value. -/
structure Rule where
  required : List String := []
  allowed : Table (List String) := .empty
  forbidden : Table (List String) := .empty
  conditions : List Condition := []
deriving DecidableEq, Repr

/-- What a rule objects to. -/
inductive Violation where
  | missing (name : String)
  | notAllowed (name value : String) (allowed : List String)
  | forbidden (name value : String)
  | missingWhen (name : String) (condition : Condition)
deriving DecidableEq, Repr

/-- The parameters that a condition asks about, with their values. -/
def Condition.text (c : Condition) : String :=
  String.intercalate ", " (c.when.entries.map fun (name, value) => name ++ "=" ++ value)

/-- The wording of a violation. -/
def Violation.message : Violation → String
  | .missing name => "missing required parameter: " ++ name
  | .notAllowed name value allowed =>
    "invalid value for " ++ name ++ ": " ++ Text.quoted value ++
      " (allowed: " ++ Text.quotedList allowed ++ ")"
  | .forbidden name value => "forbidden value for " ++ name ++ ": " ++ Text.quoted value
  | .missingWhen name condition =>
    "missing required parameter " ++ name ++ " when " ++ condition.text

/-- Whether every parameter that a condition asks about has its value. -/
def Condition.holds (c : Condition) (params : Table String) : Bool :=
  c.when.entries.all fun (name, value) => params.get? name = some value

namespace Rule

/-- The rule that objects to nothing. -/
def empty : Rule := {}

instance : Inhabited Rule := ⟨empty⟩

/-- Whether a rule says nothing. -/
def isEmpty (rule : Rule) : Bool :=
  rule.required.isEmpty && rule.allowed.isEmpty && rule.forbidden.isEmpty &&
    rule.conditions.isEmpty

/-- The first required parameter that is not there. -/
def missing? (rule : Rule) (params : Table String) : Option Violation :=
  (rule.required.find? fun name => !params.contains name).map .missing

/-- The first parameter with a value that is not allowed. -/
def notAllowed? (rule : Rule) (params : Table String) : Option Violation :=
  rule.allowed.entries.findSome? fun (name, allowed) =>
    match params.get? name with
    | some value => if allowed.contains value then none else some (.notAllowed name value allowed)
    | none => none

/-- The first parameter with a forbidden value. -/
def forbidden? (rule : Rule) (params : Table String) : Option Violation :=
  rule.forbidden.entries.findSome? fun (name, forbidden) =>
    match params.get? name with
    | some value => if forbidden.contains value then some (.forbidden name value) else none
    | none => none

/-- The first parameter that a condition requires and that is not there. -/
def missingWhen? (rule : Rule) (params : Table String) : Option Violation :=
  rule.conditions.findSome? fun condition =>
    if condition.holds params then
      (condition.required.find? fun name => !params.contains name).map (.missingWhen · condition)
    else none

/-- What a rule objects to first. -/
def violation? (rule : Rule) (params : Table String) : Option Violation :=
  rule.missing? params <|> rule.notAllowed? params <|> rule.forbidden? params <|>
    rule.missingWhen? params

end Rule

end LinkSieve.Policy
