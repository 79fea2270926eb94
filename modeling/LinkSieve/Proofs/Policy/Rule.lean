import LinkSieve.Proofs.Policy.Verdict

/-!
# What a rule without objections permits

A rule looks at one value of each parameter. If it objects to nothing, that value is among the
allowed ones and not among the forbidden ones.
-/

namespace LinkSieve.Policy.Rule

/-- A rule lets a parameter have a value. -/
structure Permits (rule : Rule) (name value : String) : Prop where
  allowed : ∀ values, rule.allowed.get? name = some values → value ∈ values
  forbidden : ∀ values, rule.forbidden.get? name = some values → value ∉ values

variable {rule : Rule} {params : Table String} {name value : String}

/-- A rule that objects to nothing permits every parameter its value. -/
theorem permits_of_violation?_eq_none (h : rule.violation? params = none)
    (hget : params.get? name = some value) : rule.Permits name value := by
  have hmet := violation?_eq_none_iff.1 h
  constructor
  · intro values hvalues
    exact hmet.allowed name values value hvalues hget
  · intro values hvalues
    exact hmet.forbidden name values value hvalues hget

/-- A rule that says nothing has no demands. -/
theorem isMet_of_isEmpty (h : rule.isEmpty = true) : rule.IsMet params := by
  simp only [isEmpty, Bool.and_eq_true, List.isEmpty_iff, Table.isEmpty_iff] at h
  obtain ⟨⟨⟨hrequired, hallowed⟩, hforbidden⟩, hconditions⟩ := h
  constructor
  · intro name hname
    rw [hrequired] at hname
    cases hname
  · intro name values value hvalues
    rw [hallowed] at hvalues
    cases hvalues
  · intro name values value hvalues
    rw [hforbidden] at hvalues
    cases hvalues
  · intro c hc
    rw [hconditions] at hc
    cases hc

end LinkSieve.Policy.Rule
