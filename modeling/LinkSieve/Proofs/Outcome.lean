/-!
# Steps that can fail

What a sequence of steps has yielded when it succeeds: each step has succeeded, and no check on
the way has thrown. What it has failed with when it fails: the error of one of the steps or checks.
And what two sequences have in common whose steps go alike.
-/

namespace LinkSieve.Outcome

variable {ε α β : Type} {x : Except ε α} {f : α → Except ε β} {b : β}

theorem bind_eq_ok : (x >>= f) = .ok b ↔ ∃ a, x = .ok a ∧ f a = .ok b := by
  cases x with
  | error e => simp [bind, Except.bind]
  | ok a => simp [bind, Except.bind]

theorem ok_bind (a : α) (f : α → Except ε β) : (.ok a >>= f) = f a := rfl

theorem map_eq_ok {g : α → β} : x.map g = .ok b ↔ ∃ a, x = .ok a ∧ g a = b := by
  cases x with
  | error e => simp [Except.map]
  | ok a => simp [Except.map]

theorem mapError_id (x : Except ε α) : x.mapError id = x := by
  cases x with
  | error e => rfl
  | ok a => rfl

theorem pure_eq_ok {a c : α} : (pure a : Except ε α) = .ok c ↔ c = a := by
  simp [pure, Except.pure, eq_comm]

/-- A check passes if its condition does not hold, and what follows it is what it yields. -/
theorem check_eq_ok {c : Prop} [Decidable c] {e : ε} {next : PUnit → Except ε β} :
    (if c then (throw e : Except ε PUnit) >>= next else next ⟨⟩) = .ok b ↔
      ¬c ∧ next ⟨⟩ = .ok b := by
  by_cases hc : c
  · rw [if_pos hc]
    constructor
    · intro h
      cases h
    · intro h
      exact absurd hc h.1
  · rw [if_neg hc]
    constructor
    · intro h
      exact ⟨hc, h⟩
    · intro h
      exact h.2

/-- What a computation yields satisfies `Q`, and what it fails with satisfies `P`. -/
def Meets (P : ε → Prop) (Q : α → Prop) : Except ε α → Prop
  | .ok a => Q a
  | .error e => P e

section Meets

variable {P : ε → Prop} {Q : α → Prop} {R : β → Prop}

/-- A sequence of steps fails with the error of one of them. -/
theorem Meets.bind (hx : Meets P Q x) (hf : ∀ a, Q a → Meets P R (f a)) :
    Meets P R (x >>= f) := by
  cases x with
  | error e => exact hx
  | ok a => exact hf a hx

theorem Meets.mono {P' : ε → Prop} (hx : Meets P Q x) (h : ∀ e, P e → P' e) :
    Meets P' Q x := by
  cases x with
  | error e => exact h e hx
  | ok a => exact hx

theorem Meets.check {c : Prop} [Decidable c] {e : ε} {next : PUnit → Except ε β} (he : P e)
    (hnext : Meets P R (next ⟨⟩)) :
    Meets P R (if c then (throw e : Except ε PUnit) >>= next else next ⟨⟩) := by
  split
  · exact he
  · exact hnext

/-- A check that is known to pass does not fail. -/
theorem Meets.pass {c : Prop} [Decidable c] {e : ε} {next : PUnit → Except ε β} (hc : ¬c)
    (hnext : Meets P R (next ⟨⟩)) :
    Meets P R (if c then (throw e : Except ε PUnit) >>= next else next ⟨⟩) := by
  rwa [if_neg hc]

end Meets

/-- Two computations fail with the same error, or both yield something and `R` relates the two. -/
inductive Alike (R : α → β → Prop) : Except ε α → Except ε β → Prop where
  | error (e : ε) : Alike R (.error e) (.error e)
  | ok {a : α} {b : β} : R a b → Alike R (.ok a) (.ok b)

section Alike

variable {γ δ : Type} {R : α → β → Prop} {S : γ → δ → Prop} {y : Except ε β}

theorem Alike.refl (x : Except ε α) : Alike Eq x x := by
  cases x with
  | error e => exact .error e
  | ok a => exact .ok rfl

theorem Alike.refl_of {P : α → Prop} (h : ∀ a, x = .ok a → P a) :
    Alike (fun a b => a = b ∧ P a) x x := by
  cases x with
  | error e => exact .error e
  | ok a => exact .ok ⟨rfl, h a rfl⟩

/-- Two sequences whose first steps go alike do so if what follows does. -/
theorem Alike.bind (h : Alike R x y) {f : α → Except ε γ} {g : β → Except ε δ}
    (hfg : ∀ a b, R a b → Alike S (f a) (g b)) : Alike S (x >>= f) (y >>= g) := by
  cases h with
  | error e => exact .error e
  | ok hab => exact hfg _ _ hab

/-- A step that both sequences take. -/
theorem Alike.step {f : α → Except ε γ} {g : α → Except ε δ} (h : ∀ a, Alike S (f a) (g a)) :
    Alike S (x >>= f) (x >>= g) :=
  (Alike.refl x).bind fun a _ hab => hab ▸ h a

end Alike

end LinkSieve.Outcome
