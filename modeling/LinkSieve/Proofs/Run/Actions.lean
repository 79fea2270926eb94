import LinkSieve.Run.Filtering

/-!
# Actions of a run on an enclosed system

An action of a run takes a state of an enclosed system to another and succeeds with a value or
fails. A sequence of actions reaches a state through the states that its steps reach, and it leaves
a part of the state alone if every step does. All that a run does before it writes is reading, which
leaves the whole state alone except that the standard input can be used up.
-/

namespace LinkSieve.Run

/-- What is done on an enclosed system. -/
abbrev Action (α : Type) := ExceptT Failure (StateM Enclosed) α

/-- An action succeeds in one state with a value and leaves another state. -/
def Reaches {α : Type} (x : Action α) (s : Enclosed) (a : α) (s' : Enclosed) : Prop :=
  x.run s = (.ok a, s')

/-- An action fails in one state and leaves another state. -/
def Fails {α : Type} (x : Action α) (s : Enclosed) (e : Failure) (s' : Enclosed) : Prop :=
  x.run s = (.error e, s')

/-- Whether it succeeds or fails, an action leaves a part of the state alone. -/
def Leaves {α β : Type} (part : Enclosed → β) (x : Action α) : Prop :=
  ∀ s, part (x.run s).2 = part s

section Actions

variable {α β γ : Type} {part : Enclosed → γ} {x : Action α} {f : α → Action β}
  {s s' s'' : Enclosed}

theorem run_bind (x : Action α) (f : α → Action β) (s : Enclosed) :
    (x >>= f).run s = match x.run s with
      | (.ok a, s') => (f a).run s'
      | (.error e, s') => (.error e, s') := by
  have hbind : (x >>= f).run s = (ExceptT.bindCont f (x.run s).1) (x.run s).2 := rfl
  rw [hbind]
  rcases x.run s with ⟨r, s'⟩
  cases r with
  | ok a => rfl
  | error e => rfl

theorem reaches_bind {b : β} :
    Reaches (x >>= f) s b s'' ↔ ∃ a s', Reaches x s a s' ∧ Reaches (f a) s' b s'' := by
  simp only [Reaches, run_bind]
  rcases x.run s with ⟨r, s₁⟩
  cases r with
  | error e =>
      constructor
      · intro h
        cases h
      · rintro ⟨a, s', h, -⟩
        cases h
  | ok a =>
      constructor
      · intro h
        exact ⟨a, s₁, rfl, h⟩
      · rintro ⟨a', s', h, h'⟩
        cases h
        exact h'

theorem exists_reaches (h : (x.run s).1.isOk = true) : ∃ a, Reaches x s a (x.run s).2 := by
  rcases hrun : x.run s with ⟨r, s₁⟩
  rw [hrun] at h
  cases r with
  | error e => cases h
  | ok a => exact ⟨a, hrun⟩

theorem exists_fails (h : (x.run s).1.isOk = false) : ∃ e, Fails x s e (x.run s).2 := by
  rcases hrun : x.run s with ⟨r, s₁⟩
  rw [hrun] at h
  cases r with
  | error e => exact ⟨e, hrun⟩
  | ok a => cases h

/-- What fails keeps what follows from being done. -/
theorem Fails.bind {e : Failure} (h : Fails x s e s') : Fails (x >>= f) s e s' := by
  rw [Fails, run_bind, h]

theorem Reaches.unique {a b : α} (h : Reaches x s a s') (h' : Reaches x s b s'') :
    a = b ∧ s' = s'' := by
  have heq := h.symm.trans h'
  exact ⟨Except.ok.inj (congrArg Prod.fst heq), congrArg Prod.snd heq⟩

theorem reaches_pure {a b : α} : Reaches (pure a) s b s' ↔ b = a ∧ s' = s := by
  constructor
  · intro h
    cases h
    exact ⟨rfl, rfl⟩
  · rintro ⟨rfl, rfl⟩
    rfl

theorem Leaves.bind (hx : Leaves part x) (hf : ∀ a, Leaves part (f a)) : Leaves part (x >>= f) := by
  intro s
  have hfirst := hx s
  rw [run_bind]
  generalize x.run s = found at hfirst ⊢
  obtain ⟨r, s₁⟩ := found
  cases r with
  | error e => exact hfirst
  | ok a => exact (hf a s₁).trans hfirst

theorem leaves_pure (a : α) : Leaves part (pure a) := fun _ => rfl

theorem leaves_throw (e : Failure) : Leaves part (throw e : Action α) := fun _ => rfl

/-- What leaves the whole state alone leaves every part of it alone. -/
theorem Leaves.of_id (hx : Leaves id x) : Leaves part x := fun s => congrArg part (hx s)

/-- An action that leaves the state alone succeeds in the state in which it leaves off. -/
theorem Leaves.eq_of_reaches {a : α} (hx : Leaves id x) (h : Reaches x s a s') : s' = s := by
  have hsame : (x.run s).2 = s := hx s
  rwa [h] at hsame

/-- An action that leaves the state alone hands it on to what follows. -/
theorem Leaves.exists_of_reaches_bind {b : β} (hx : Leaves id x) (h : Reaches (x >>= f) s b s') :
    ∃ a, Reaches x s a s ∧ Reaches (f a) s b s' := by
  obtain ⟨a, s₁, hfirst, hrest⟩ := reaches_bind.1 h
  obtain rfl := hx.eq_of_reaches hfirst
  exact ⟨a, hfirst, hrest⟩

end Actions

section Reading

variable {s s' : Enclosed} {path : String}

theorem reaches_expand {expanded : String} :
    Reaches (Enclosed.surroundings.expand path) s expanded s' ↔
      expanded = Files.Path.expandHome s.home path ∧ s' = s := by
  constructor
  · intro h
    cases h
    exact ⟨rfl, rfl⟩
  · rintro ⟨rfl, rfl⟩
    rfl

theorem leaves_expand (path : String) : Leaves id (Enclosed.surroundings.expand path) :=
  fun _ => rfl

theorem leaves_readText (path : String) (failure : Failure) :
    Leaves id (Enclosed.surroundings.readText path failure) := by
  refine Leaves.bind (fun _ => rfl) fun found => ?_
  split
  · exact leaves_pure _
  · exact leaves_throw _

theorem leaves_settings (path : Option String) :
    Leaves id (Enclosed.surroundings.settings path) := by
  cases path with
  | none => exact leaves_pure _
  | some path =>
      refine (leaves_expand path).bind fun path => (leaves_readText _ _).bind fun text => ?_
      split
      · exact leaves_pure _
      · exact leaves_throw _

theorem leaves_rules (path : Option String) : Leaves id (Enclosed.surroundings.rules path) := by
  cases path with
  | none => exact leaves_pure _
  | some path =>
      refine (leaves_expand path).bind fun path => (leaves_readText _ _).bind fun text => ?_
      split
      · exact leaves_pure _
      · exact leaves_throw _

theorem leaves_words (path : Option String) : Leaves id (Enclosed.surroundings.words path) := by
  cases path with
  | none => exact leaves_pure _
  | some path =>
      exact (leaves_expand path).bind fun path => (leaves_readText _ _).bind fun text =>
        leaves_pure _

/-- Reading a subscription leaves the files alone, wherever it comes from. -/
theorem leaves_subscription (path : String) :
    Leaves Enclosed.tree (Enclosed.surroundings.subscription path) := by
  rw [Surroundings.subscription]
  split
  · refine Leaves.bind (fun _ => rfl) fun found => ?_
    split
    · exact leaves_pure _
    · exact leaves_throw _
  · refine (leaves_expand path).of_id.bind fun path => Leaves.bind (fun _ => rfl) fun found => ?_
    split
    · exact leaves_pure _
    · exact leaves_throw _

theorem reaches_subscription {body : List UInt8} (hpath : path ≠ standardInput)
    (h : Reaches (Enclosed.surroundings.subscription path) s body s') :
    s.tree.read? (Files.Path.expandHome s.home path) = some body ∧ s' = s := by
  rw [Surroundings.subscription, if_neg hpath] at h
  obtain ⟨expanded, hexpand, h⟩ := (leaves_expand path).exists_of_reaches_bind h
  obtain ⟨rfl, -⟩ := reaches_expand.1 hexpand
  obtain ⟨found, s₁, hread, h⟩ := reaches_bind.1 h
  cases hread
  split at h
  · rename_i hfound
    obtain ⟨rfl, rfl⟩ := reaches_pure.1 h
    exact ⟨hfound, rfl⟩
  · cases h

end Reading

end LinkSieve.Run
