import LinkSieve.Policy.RuleSet
import LinkSieve.Proofs.Table
import LinkSieve.Proofs.Text.Quoted

/-!
# What rules say

A rule objects only to what it names, and its objections show the names and the conditions of the
rule as they stand and all values in quotes. Where these names and conditions are on one line, so
is every objection.
-/

namespace LinkSieve.Policy

open Text (IsOneLine isOneLine_append isOneLine_ofList isOneLine_quoted isOneLine_quotedList)

namespace Rule

/-- The objections that a rule can raise: each speaks of an entry of the rule. -/
inductive Raises (rule : Rule) : Violation → Prop where
  | missing {name : String} : name ∈ rule.required → Raises rule (.missing name)
  | notAllowed {name value : String} {allowed : List String} :
      (name, allowed) ∈ rule.allowed.entries → Raises rule (.notAllowed name value allowed)
  | forbidden {name value : String} {values : List String} :
      (name, values) ∈ rule.forbidden.entries → Raises rule (.forbidden name value)
  | missingWhen {name : String} {condition : Condition} :
      condition ∈ rule.conditions → name ∈ condition.required →
        Raises rule (.missingWhen name condition)

variable {rule : Rule} {params : Table String} {v : Violation}

theorem raises_of_missing? (h : rule.missing? params = some v) : rule.Raises v := by
  obtain ⟨name, hname, rfl⟩ := Option.map_eq_some_iff.1 h
  exact .missing (List.mem_of_find?_eq_some hname)

theorem raises_of_notAllowed? (h : rule.notAllowed? params = some v) : rule.Raises v := by
  obtain ⟨⟨name, allowed⟩, hentry, h⟩ := List.exists_of_findSome?_eq_some h
  simp only at h
  split at h
  · split at h
    · cases h
    · obtain rfl := Option.some.inj h
      exact .notAllowed hentry
  · cases h

theorem raises_of_forbidden? (h : rule.forbidden? params = some v) : rule.Raises v := by
  obtain ⟨⟨name, values⟩, hentry, h⟩ := List.exists_of_findSome?_eq_some h
  simp only at h
  split at h
  · split at h
    · obtain rfl := Option.some.inj h
      exact .forbidden hentry
    · cases h
  · cases h

theorem raises_of_missingWhen? (h : rule.missingWhen? params = some v) : rule.Raises v := by
  obtain ⟨condition, hcondition, h⟩ := List.exists_of_findSome?_eq_some h
  split at h
  · obtain ⟨name, hname, rfl⟩ := Option.map_eq_some_iff.1 h
    exact .missingWhen hcondition (List.mem_of_find?_eq_some hname)
  · cases h

theorem raises_of_violation? (h : rule.violation? params = some v) : rule.Raises v := by
  simp only [violation?, Option.orElse_eq_orElse, Option.orElse_eq_or, Option.or_eq_some_iff] at h
  rcases h with h | ⟨-, h | ⟨-, h | ⟨-, h⟩⟩⟩
  · exact raises_of_missing? h
  · exact raises_of_notAllowed? h
  · exact raises_of_forbidden? h
  · exact raises_of_missingWhen? h

end Rule

/-- A condition whose texts are on one line. -/
structure Condition.IsPlain (c : Condition) : Prop where
  when : ∀ e ∈ c.when.entries, IsOneLine e.1 ∧ IsOneLine e.2
  required : ∀ name ∈ c.required, IsOneLine name

/-- A rule whose names of parameters and whose conditions are on one line. Nothing is asked of the
values that it allows or forbids. -/
structure Rule.IsPlain (rule : Rule) : Prop where
  required : ∀ name ∈ rule.required, IsOneLine name
  allowed : ∀ e ∈ rule.allowed.entries, IsOneLine e.1
  forbidden : ∀ e ∈ rule.forbidden.entries, IsOneLine e.1
  conditions : ∀ c ∈ rule.conditions, c.IsPlain

/-- A rule set of such rules. -/
def RuleSet.IsPlain (rules : RuleSet) : Prop :=
  ∀ e ∈ rules.rules.entries, e.2.IsPlain

theorem RuleSet.IsPlain.rule {rules : RuleSet} {protocol : String} {rule : Rule}
    (h : rules.IsPlain) (hrule : rules.get? protocol = some rule) : rule.IsPlain :=
  h _ (Table.get?_eq_some_iff.1 hrule)

theorem Condition.IsPlain.isOneLine_text {c : Condition} (h : c.IsPlain) : IsOneLine c.text := by
  apply Text.isOneLine_intercalate (isOneLine_ofList (by decide))
  intro s hs
  obtain ⟨⟨name, value⟩, hentry, rfl⟩ := List.mem_map.1 hs
  obtain ⟨hname, hvalue⟩ := h.when _ hentry
  simp only [isOneLine_append]
  exact ⟨⟨hname, isOneLine_ofList (by decide)⟩, hvalue⟩

/-- What such a rule objects is on one line, whatever the values that it shows. -/
theorem Rule.IsPlain.isOneLine_message {rule : Rule} {v : Violation} (h : rule.IsPlain)
    (hv : rule.Raises v) : IsOneLine v.message := by
  unfold Violation.message
  cases hv with
  | missing hname =>
      exact isOneLine_append.2 ⟨isOneLine_ofList (by decide), h.required _ hname⟩
  | notAllowed hentry =>
      simp only [isOneLine_append]
      refine ⟨⟨⟨⟨⟨⟨?_, h.allowed _ hentry⟩, ?_⟩, isOneLine_quoted _⟩, ?_⟩,
        isOneLine_quotedList _⟩, ?_⟩
      all_goals exact isOneLine_ofList (by decide)
  | forbidden hentry =>
      simp only [isOneLine_append]
      refine ⟨⟨⟨?_, h.forbidden _ hentry⟩, ?_⟩, isOneLine_quoted _⟩
      all_goals exact isOneLine_ofList (by decide)
  | missingWhen hcondition hname =>
      have hplain := h.conditions _ hcondition
      simp only [isOneLine_append]
      refine ⟨⟨⟨?_, hplain.required _ hname⟩, ?_⟩, hplain.isOneLine_text⟩
      all_goals exact isOneLine_ofList (by decide)

end LinkSieve.Policy
