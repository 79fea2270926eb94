import LinkSieve.Policy.Rule
import LinkSieve.Proofs.Table
import LinkSieve.Proofs.Text.Split

/-!
# The verdict of a rule

A rule states demands on the parameters of a link: names that must occur, values that a parameter
may or must not have, and names that must occur once others have given values. The rule objects to
nothing exactly if all of its demands are met. Otherwise it objects to the first one that is not:
demands come in the order of these four kinds, those on values by name, and all others in the
order in which the rule lists them.

## Implementation notes

Demands on values are keyed by name in a table, so the first one that is not met is told by its
name alone. Lists of names and of conditions may repeat themselves; there the first one is told by
what stands before it.
-/

namespace LinkSieve.Policy

open Text (IsFirst find?_eq_some_iff_isFirst)

/-- Every parameter that a condition asks about has the value that it asks for. -/
def Condition.Applies (c : Condition) (params : Table String) : Prop :=
  ∀ name value, c.when.get? name = some value → params.get? name = some value

/-- Where a condition applies, the names that it requires occur. -/
def Condition.IsMet (c : Condition) (params : Table String) : Prop :=
  c.Applies params → ∀ name ∈ c.required, name ∈ params.names

theorem Condition.holds_iff {c : Condition} {params : Table String} :
    c.holds params = true ↔ c.Applies params := by
  simp only [holds, Applies, List.all_eq_true, decide_eq_true_iff, Table.get?_eq_some_iff,
    Prod.forall]

namespace Rule

/-- If a parameter has a value and there is a list of allowed ones, the value is on it. -/
def AllowsAt (rule : Rule) (params : Table String) (name : String) : Prop :=
  ∀ values value, rule.allowed.get? name = some values → params.get? name = some value →
    value ∈ values

/-- If a parameter has a value and there is a list of forbidden ones, the value is not on it. -/
def SparesAt (rule : Rule) (params : Table String) (name : String) : Prop :=
  ∀ values value, rule.forbidden.get? name = some values → params.get? name = some value →
    value ∉ values

/-- The parameters of a link meet all demands of a rule. -/
structure IsMet (rule : Rule) (params : Table String) : Prop where
  required : ∀ name ∈ rule.required, name ∈ params.names
  allowed : ∀ name, rule.AllowsAt params name
  forbidden : ∀ name, rule.SparesAt params name
  conditions : ∀ c ∈ rule.conditions, c.IsMet params

/-- The first demand of a rule that is not met. -/
inductive ObjectsFirst (rule : Rule) (params : Table String) : Violation → Prop where
  | missing {name : String} :
      IsFirst (· ∉ params.names) rule.required name →
      ObjectsFirst rule params (.missing name)
  | notAllowed {name value : String} {values : List String} :
      (∀ n ∈ rule.required, n ∈ params.names) →
      rule.allowed.get? name = some values → params.get? name = some value → value ∉ values →
      (∀ n < name, rule.AllowsAt params n) →
      ObjectsFirst rule params (.notAllowed name value values)
  | forbidden {name value : String} {values : List String} :
      (∀ n ∈ rule.required, n ∈ params.names) →
      (∀ n, rule.AllowsAt params n) →
      rule.forbidden.get? name = some values → params.get? name = some value → value ∈ values →
      (∀ n < name, rule.SparesAt params n) →
      ObjectsFirst rule params (.forbidden name value)
  | missingWhen {name : String} {c : Condition} :
      (∀ n ∈ rule.required, n ∈ params.names) →
      (∀ n, rule.AllowsAt params n) →
      (∀ n, rule.SparesAt params n) →
      IsFirst (¬·.IsMet params) rule.conditions c →
      IsFirst (· ∉ params.names) c.required name →
      ObjectsFirst rule params (.missingWhen name c)

variable {rule : Rule} {params : Table String} {v : Violation}

theorem not_contains_iff {name : String} :
    (!params.contains name) = true ↔ name ∉ params.names := by
  rw [Bool.not_eq_true', Bool.eq_false_iff, ne_eq, Table.contains_iff_mem_names]

theorem find?_missing_eq_none_iff {names : List String} :
    (names.find? fun name => !params.contains name) = none ↔
      ∀ name ∈ names, name ∈ params.names := by
  simp only [List.find?_eq_none, not_contains_iff, Classical.not_not]

theorem missing?_eq_none_iff :
    rule.missing? params = none ↔ ∀ name ∈ rule.required, name ∈ params.names := by
  rw [missing?, Option.map_eq_none_iff, find?_missing_eq_none_iff]

theorem missing?_eq_some_iff : rule.missing? params = some v ↔
    ∃ name, IsFirst (· ∉ params.names) rule.required name ∧ v = .missing name := by
  simp only [missing?, Option.map_eq_some_iff, eq_comm (b := v),
    find?_eq_some_iff_isFirst fun _ => not_contains_iff]

/-- The objection to the value of a parameter for which there is a list of allowed ones. -/
def unlisted? (params : Table String) (name : String) (values : List String) : Option Violation :=
  match params.get? name with
  | some value => if values.contains value then none else some (.notAllowed name value values)
  | none => none

/-- The objection to the value of a parameter for which there is a list of forbidden ones. -/
def listed? (params : Table String) (name : String) (values : List String) : Option Violation :=
  match params.get? name with
  | some value => if values.contains value then some (.forbidden name value) else none
  | none => none

theorem notAllowed?_eq : rule.notAllowed? params =
    rule.allowed.entries.findSome? fun e => unlisted? params e.1 e.2 := rfl

theorem forbidden?_eq : rule.forbidden? params =
    rule.forbidden.entries.findSome? fun e => listed? params e.1 e.2 := rfl

section Values

variable {name : String} {values : List String}

theorem unlisted?_eq_some_iff : unlisted? params name values = some v ↔
    ∃ value, params.get? name = some value ∧ value ∉ values ∧
      v = .notAllowed name value values := by
  rw [unlisted?]
  cases params.get? name with
  | none => simp
  | some value => simp [eq_comm]

theorem unlisted?_eq_none_iff : unlisted? params name values = none ↔
    ∀ value, params.get? name = some value → value ∈ values := by
  rw [unlisted?]
  cases params.get? name with
  | none => simp
  | some value => simp

theorem listed?_eq_some_iff : listed? params name values = some v ↔
    ∃ value, params.get? name = some value ∧ value ∈ values ∧ v = .forbidden name value := by
  rw [listed?]
  cases params.get? name with
  | none => simp
  | some value => simp [eq_comm]

theorem listed?_eq_none_iff : listed? params name values = none ↔
    ∀ value, params.get? name = some value → value ∉ values := by
  rw [listed?]
  cases params.get? name with
  | none => simp
  | some value => simp

end Values

theorem notAllowed?_eq_none_iff :
    rule.notAllowed? params = none ↔ ∀ name, rule.AllowsAt params name := by
  rw [notAllowed?_eq, Table.findSome?_entries_eq_none_iff]
  simp only [unlisted?_eq_none_iff]
  constructor
  · intro h name values value hvalues hvalue
    exact h name values hvalues value hvalue
  · intro h name values hvalues value hvalue
    exact h name values value hvalues hvalue

theorem notAllowed?_eq_some_iff : rule.notAllowed? params = some v ↔
    ∃ name value values, rule.allowed.get? name = some values ∧
      params.get? name = some value ∧ value ∉ values ∧
      (∀ n < name, rule.AllowsAt params n) ∧ v = .notAllowed name value values := by
  rw [notAllowed?_eq, Table.findSome?_entries_eq_some_iff]
  simp only [unlisted?_eq_some_iff, unlisted?_eq_none_iff]
  constructor
  · rintro ⟨name, values, hvalues, ⟨value, hvalue, hnot, rfl⟩, hless⟩
    exact ⟨name, value, values, hvalues, hvalue, hnot,
      fun n hn vs v hvs hv => hless n hn vs hvs v hv, rfl⟩
  · rintro ⟨name, value, values, hvalues, hvalue, hnot, hless, rfl⟩
    exact ⟨name, values, hvalues, ⟨value, hvalue, hnot, rfl⟩,
      fun n hn vs hvs v hv => hless n hn vs v hvs hv⟩

theorem forbidden?_eq_none_iff :
    rule.forbidden? params = none ↔ ∀ name, rule.SparesAt params name := by
  rw [forbidden?_eq, Table.findSome?_entries_eq_none_iff]
  simp only [listed?_eq_none_iff]
  constructor
  · intro h name values value hvalues hvalue
    exact h name values hvalues value hvalue
  · intro h name values hvalues value hvalue
    exact h name values value hvalues hvalue

theorem forbidden?_eq_some_iff : rule.forbidden? params = some v ↔
    ∃ name value values, rule.forbidden.get? name = some values ∧
      params.get? name = some value ∧ value ∈ values ∧
      (∀ n < name, rule.SparesAt params n) ∧ v = .forbidden name value := by
  rw [forbidden?_eq, Table.findSome?_entries_eq_some_iff]
  simp only [listed?_eq_some_iff, listed?_eq_none_iff]
  constructor
  · rintro ⟨name, values, hvalues, ⟨value, hvalue, hmem, rfl⟩, hless⟩
    exact ⟨name, value, values, hvalues, hvalue, hmem,
      fun n hn vs v hvs hv => hless n hn vs hvs v hv, rfl⟩
  · rintro ⟨name, value, values, hvalues, hvalue, hmem, hless, rfl⟩
    exact ⟨name, values, hvalues, ⟨value, hvalue, hmem, rfl⟩,
      fun n hn vs hvs v hv => hless n hn vs v hvs hv⟩

/-- A condition is the reason to object if it applies and a name that it requires is missing; the
first such name is the one to mention. -/
theorem condition_eq_some_iff {c : Condition} :
    (if c.holds params then
      (c.required.find? fun name => !params.contains name).map (.missingWhen · c)
    else none) = some v ↔
      ¬c.IsMet params ∧
        ∃ name, IsFirst (· ∉ params.names) c.required name ∧ v = .missingWhen name c := by
  by_cases happlies : c.Applies params
  · rw [if_pos (Condition.holds_iff.2 happlies)]
    simp only [Option.map_eq_some_iff, eq_comm (b := v),
      find?_eq_some_iff_isFirst fun _ => not_contains_iff]
    constructor
    · rintro ⟨name, hfirst, hv⟩
      refine ⟨fun hmet => hfirst.1 (hmet happlies name ?_), name, hfirst, hv⟩
      obtain ⟨-, before, after, heq, -⟩ := hfirst
      simp [heq]
    · rintro ⟨-, found⟩
      exact found
  · rw [if_neg (mt Condition.holds_iff.1 happlies)]
    constructor
    · intro h
      cases h
    · rintro ⟨hnot, -⟩
      exact absurd (fun h => absurd h happlies) hnot

theorem condition_eq_none_iff {c : Condition} :
    (if c.holds params then
      (c.required.find? fun name => !params.contains name).map (.missingWhen · c)
    else (none : Option Violation)) = none ↔ c.IsMet params := by
  rw [Condition.IsMet, ← Condition.holds_iff]
  split
  · rename_i hholds
    rw [Option.map_eq_none_iff, find?_missing_eq_none_iff]
    exact ⟨fun h _ => h, fun h => h hholds⟩
  · rename_i hnot
    exact ⟨fun _ h => absurd h hnot, fun _ => rfl⟩

theorem missingWhen?_eq_none_iff :
    rule.missingWhen? params = none ↔ ∀ c ∈ rule.conditions, c.IsMet params := by
  rw [missingWhen?, List.findSome?_eq_none_iff]
  simp only [condition_eq_none_iff]

theorem missingWhen?_eq_some_iff : rule.missingWhen? params = some v ↔
    ∃ c name, IsFirst (¬·.IsMet params) rule.conditions c ∧
      IsFirst (· ∉ params.names) c.required name ∧ v = .missingWhen name c := by
  rw [missingWhen?, List.findSome?_eq_some_iff]
  simp only [condition_eq_some_iff, condition_eq_none_iff]
  constructor
  · rintro ⟨before, c, after, heq, ⟨hnot, name, hname, hv⟩, hbefore⟩
    refine ⟨c, name, ⟨hnot, before, after, heq, ?_⟩, hname, hv⟩
    exact fun b hb => Classical.not_not.2 (hbefore b hb)
  · rintro ⟨c, name, ⟨hnot, before, after, heq, hbefore⟩, hname, hv⟩
    refine ⟨before, c, after, heq, ⟨hnot, name, hname, hv⟩, ?_⟩
    exact fun b hb => Classical.not_not.1 (hbefore b hb)

theorem violation?_eq_none_iff : rule.violation? params = none ↔ rule.IsMet params := by
  simp only [violation?, Option.orElse_eq_orElse, Option.orElse_eq_or, Option.or_eq_none_iff,
    missing?_eq_none_iff, notAllowed?_eq_none_iff, forbidden?_eq_none_iff,
    missingWhen?_eq_none_iff]
  constructor
  · rintro ⟨hrequired, hallowed, hforbidden, hconditions⟩
    exact ⟨hrequired, hallowed, hforbidden, hconditions⟩
  · rintro ⟨hrequired, hallowed, hforbidden, hconditions⟩
    exact ⟨hrequired, hallowed, hforbidden, hconditions⟩

theorem violation?_eq_some_iff :
    rule.violation? params = some v ↔ rule.ObjectsFirst params v := by
  simp only [violation?, Option.orElse_eq_orElse, Option.orElse_eq_or, Option.or_eq_some_iff,
    missing?_eq_none_iff, notAllowed?_eq_none_iff, forbidden?_eq_none_iff,
    missing?_eq_some_iff, notAllowed?_eq_some_iff, forbidden?_eq_some_iff,
    missingWhen?_eq_some_iff]
  constructor
  · rintro (⟨name, hname, rfl⟩ | ⟨hrequired, hvalues⟩)
    · exact .missing hname
    rcases hvalues with ⟨name, value, values, hget, hvalue, hnot, hless, rfl⟩ | ⟨hallowed, hrest⟩
    · exact .notAllowed hrequired hget hvalue hnot hless
    rcases hrest with ⟨name, value, values, hget, hvalue, hmem, hless, rfl⟩ | ⟨hforbidden, hlast⟩
    · exact .forbidden hrequired hallowed hget hvalue hmem hless
    · obtain ⟨c, name, hc, hname, rfl⟩ := hlast
      exact .missingWhen hrequired hallowed hforbidden hc hname
  · intro h
    cases h with
    | missing hname => exact .inl ⟨_, hname, rfl⟩
    | notAllowed hrequired hget hvalue hnot hless =>
        exact .inr ⟨hrequired, .inl ⟨_, _, _, hget, hvalue, hnot, hless, rfl⟩⟩
    | forbidden hrequired hallowed hget hvalue hmem hless =>
        exact .inr ⟨hrequired, .inr ⟨hallowed, .inl ⟨_, _, _, hget, hvalue, hmem, hless, rfl⟩⟩⟩
    | missingWhen hrequired hallowed hforbidden hc hname =>
        exact .inr ⟨hrequired, .inr ⟨hallowed, .inr ⟨hforbidden, _, _, hc, hname, rfl⟩⟩⟩

/-- A rule lets parameters pass exactly if they meet all of its demands, and otherwise objects to
the first demand that they do not meet, in the words for that objection. -/
theorem verdict_eq (rule : Rule) (params : Table String) :
    (rule.violation? params = none ↔ rule.IsMet params) ∧
      (∀ v, rule.violation? params = some v ↔ rule.ObjectsFirst params v) ∧
      ∀ reason, (rule.violation? params).map Violation.message = some reason ↔
        ∃ v, rule.ObjectsFirst params v ∧ v.message = reason := by
  refine ⟨violation?_eq_none_iff, fun _ => violation?_eq_some_iff, fun reason => ?_⟩
  simp only [Option.map_eq_some_iff, violation?_eq_some_iff]

/-- A missing name is mentioned before a value that is not allowed. -/
example : (Rule.violation? { required := ["a"], allowed := .ofList [("b", ["x", "y"])] }
    (.ofList [("b", "z")])).map Violation.message = some "missing required parameter: a" := rfl

end Rule

end LinkSieve.Policy
