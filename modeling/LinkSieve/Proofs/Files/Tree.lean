import LinkSieve.Files.Tree
import LinkSieve.Proofs.Outcome
import LinkSieve.Proofs.Table

/-!
# What operations change in a file tree

The place that a path names is a matter of its text and of the working directory alone, and a walk
that gets anywhere gets there. So every operation is described by the places that it changes: a
file is written, moved or removed at the places of its paths and nowhere else, and directories are
only made, along a path and where there was nothing. No operation takes a directory away, so what
could be walked can be walked afterwards.
-/

namespace LinkSieve.Files

/-- The place that a name leads to from another, whatever stands there. -/
def Place.step (place : Place) (name : String) : Place :=
  if name = "" || name = "." then place
  else if name = ".." then place.dropLast
  else place ++ [name]

namespace Tree

variable {t t' t'' : Tree} {place p q : Place} {e : Entry} {path : String}

/-- The place that a path names, whether or not the path can be walked. -/
def placeOf (t : Tree) (path : String) : Place :=
  (namesOf path).foldl Place.step (t.start path)

/-- Some of the names of a path lead to a place. -/
def LeadsThrough (t : Tree) (path : String) (place : Place) : Prop :=
  ∃ names, names ≠ [] ∧ names <+: namesOf path ∧ place = names.foldl Place.step (t.start path)

/-- There is nothing at a path: a directory on the way is missing, or what the path names. -/
def Lacks (t : Tree) (path : String) : Prop :=
  t.walk path = .error .absent ∨
    t.walk path = .ok (t.placeOf path) ∧ t.get? (t.placeOf path) = none

theorem ne_of_directory (hp : t.get? p = some .directory)
    (h : t.get? place ≠ some .directory) : p ≠ place := by
  rintro rfl
  exact h hp

theorem ne_nil_of_ne_directory (h : t.get? p ≠ some .directory) : p ≠ [] :=
  (ne_of_directory rfl h).symm

theorem ne_directory_of_file {content : List UInt8} (h : t.get? p = some (.file content)) :
    t.get? p ≠ some .directory := by
  rw [h]
  exact nofun

theorem get?_erase_self (h : place ≠ []) : (t.erase place).get? place = none := by
  rw [get?, if_neg h, erase, Table.lookup_filter_ne, if_pos rfl]

theorem get?_erase_of_ne (h : p ≠ place) : (t.erase place).get? p = t.get? p := by
  rw [get?, get?, erase, Table.lookup_filter_ne, if_neg h]

theorem get?_put_self (h : place ≠ []) : (t.put place e).get? place = some e := by
  rw [get?, if_neg h, put, List.lookup_cons_self]

theorem get?_put_of_ne (h : p ≠ place) : (t.put place e).get? p = t.get? p := by
  have hne : (p == place) = false := beq_eq_false_iff_ne.2 h
  rw [get?, put, List.lookup_cons, hne, ← get?_erase_of_ne (t := t) h, get?]

theorem step_eq_ok {name : String} (h : t.step place name = .ok q) :
    t.get? place = some .directory ∧ q = Place.step place name := by
  rw [step] at h
  split at h
  · cases h
  · cases h
  · rename_i hdirectory
    refine ⟨hdirectory, ?_⟩
    rw [Place.step]
    split at h
    · rename_i hstay
      rw [if_pos hstay]
      exact (Except.ok.inj h).symm
    · rename_i hstay
      rw [if_neg hstay]
      split at h
      · rename_i hup
        rw [if_pos hup]
        exact (Except.ok.inj h).symm
      · rename_i hup
        rw [if_neg hup]
        split at h
        · exact (Except.ok.inj h).symm
        · cases h

theorem step_mono {name : String} (hsub : t.get? place = some .directory →
    t'.get? place = some .directory) (h : t.step place name = .ok q) :
    t'.step place name = .ok q := by
  have hdirectory := (step_eq_ok h).1
  rw [step, hdirectory] at h
  rw [step, hsub hdirectory]
  exact h

theorem eq_foldl_of_foldlM {names : List String} (h : names.foldlM t.step place = .ok q) :
    q = names.foldl Place.step place := by
  induction names generalizing place with
  | nil => exact (Except.ok.inj h).symm
  | cons name names ih =>
      rw [List.foldlM_cons, Outcome.bind_eq_ok] at h
      obtain ⟨next, hstep, hrest⟩ := h
      rw [List.foldl_cons, ← (step_eq_ok hstep).2]
      exact ih hrest

theorem foldlM_mono {names : List String}
    (hsub : ∀ p, t.get? p = some .directory → t'.get? p = some .directory)
    (h : names.foldlM t.step place = .ok q) : names.foldlM t'.step place = .ok q := by
  induction names generalizing place with
  | nil => exact h
  | cons name names ih =>
      rw [List.foldlM_cons, Outcome.bind_eq_ok] at h ⊢
      obtain ⟨next, hstep, hrest⟩ := h
      exact ⟨next, step_mono (hsub place) hstep, ih hrest⟩

/-- A walk that gets anywhere gets to the place that the path names. -/
theorem eq_placeOf_of_walk (h : t.walk path = .ok q) : q = t.placeOf path := by
  rw [walk] at h
  split at h
  · cases h
  split at h
  · exact eq_foldl_of_foldlM h
  · cases h

/-- A tree has come from another by changes of files at given places, and by making directories at
given ones where there was nothing. -/
structure Changes (files directories : Place → Prop) (t t' : Tree) : Prop where
  here : t'.here = t.here
  kept : ∀ p, t.get? p = some .directory → t'.get? p = some .directory
  elsewhere : ∀ p, ¬files p → t'.get? p = t.get? p ∨
    t.get? p = none ∧ t'.get? p = some .directory ∧ directories p

namespace Changes

variable {files files' directories directories' : Place → Prop}

theorem refl (t : Tree) : Changes files directories t t :=
  ⟨rfl, fun _ h => h, fun _ _ => .inl rfl⟩

theorem mono (h : Changes files directories t t') (hfiles : ∀ p, files p → files' p)
    (hdirectories : ∀ p, directories p → directories' p) : Changes files' directories' t t' := by
  refine ⟨h.here, h.kept, fun p hp => ?_⟩
  rcases h.elsewhere p (mt (hfiles p) hp) with hsame | ⟨hnone, hnew, hmade⟩
  · exact .inl hsame
  · exact .inr ⟨hnone, hnew, hdirectories p hmade⟩

theorem trans (h : Changes files directories t t') (h' : Changes files directories t' t'') :
    Changes files directories t t'' := by
  refine ⟨h'.here.trans h.here, fun p hp => h'.kept p (h.kept p hp), fun p hp => ?_⟩
  rcases h.elsewhere p hp with hsame | ⟨hnone, hnew, hmade⟩
  · rcases h'.elsewhere p hp with hsame' | ⟨hnone', hnew', hmade'⟩
    · exact .inl (hsame'.trans hsame)
    · exact .inr ⟨hsame ▸ hnone', hnew', hmade'⟩
  · exact .inr ⟨hnone, h'.kept p hnew, hmade⟩

/-- A file stays where it is unless it is at one of the places. -/
theorem get?_file (h : Changes files directories t t') {content : List UInt8} (hp : ¬files p)
    (hfile : t.get? p = some (.file content)) : t'.get? p = some (.file content) := by
  rcases h.elsewhere p hp with hsame | ⟨hnone, -, -⟩
  · rw [hsame, hfile]
  · rw [hnone] at hfile
    cases hfile

theorem start_eq (h : Changes files directories t t') (path : String) :
    t'.start path = t.start path := by
  rw [start, start, h.here]

theorem placeOf_eq (h : Changes files directories t t') (path : String) :
    t'.placeOf path = t.placeOf path := by
  rw [placeOf, placeOf, h.start_eq]

theorem walk_eq_ok (h : Changes files directories t t') (hwalk : t.walk path = .ok q) :
    t'.walk path = .ok q := by
  rw [walk] at hwalk ⊢
  split at hwalk
  · cases hwalk
  · rename_i hpath
    rw [if_neg hpath]
    split at hwalk
    · rename_i husable
      rw [if_pos husable, h.start_eq]
      exact foldlM_mono h.kept hwalk
    · cases hwalk

/-- What a path reads stays the same unless it is at one of the places. -/
theorem read?_eq_some (h : Changes files directories t t') {content : List UInt8}
    (hp : ¬files (t.placeOf path)) (hread : t.read? path = some content) :
    t'.read? path = some content := by
  rw [read?] at hread ⊢
  cases hwalk : t.walk path with
  | error fault =>
      rw [hwalk] at hread
      cases hread
  | ok q =>
      obtain rfl := eq_placeOf_of_walk hwalk
      rw [hwalk] at hread
      rw [h.walk_eq_ok hwalk]
      simp only at hread ⊢
      split at hread
      · rename_i found hfile
        rw [h.get?_file hp hfile]
        exact hread
      · cases hread

end Changes

theorem changes_put (h : t.get? place ≠ some .directory) (content : List UInt8) :
    Changes (· = place) (fun _ => False) t (t.put place (.file content)) := by
  refine ⟨rfl, fun p hp => ?_, fun p hp => .inl (get?_put_of_ne hp)⟩
  rw [get?_put_of_ne (ne_of_directory hp h), hp]

theorem changes_erase (h : t.get? place ≠ some .directory) :
    Changes (· = place) (fun _ => False) t (t.erase place) := by
  refine ⟨rfl, fun p hp => ?_, fun p hp => .inl (get?_erase_of_ne hp)⟩
  rw [get?_erase_of_ne (ne_of_directory hp h), hp]

theorem changes_put_directory (h : t.get? place = none) :
    Changes (fun _ => False) (· = place) t (t.put place .directory) := by
  have hfree : t.get? place ≠ some .directory := by
    rw [h]
    exact nofun
  refine ⟨rfl, fun p hp => ?_, fun p _ => ?_⟩
  · rw [get?_put_of_ne (ne_of_directory hp hfree), hp]
  · by_cases hp : p = place
    · subst hp
      exact .inr ⟨h, get?_put_self (ne_nil_of_ne_directory hfree), rfl⟩
    · exact .inl (get?_put_of_ne hp)

/-- Directories are made at places that some of the names lead to. -/
theorem changes_ensure (t : Tree) (place : Place) (names : List String) :
    Changes (fun _ => False)
      (fun p => ∃ front, front ≠ [] ∧ front <+: names ∧ p = front.foldl Place.step place)
      t (t.ensure place names).1 := by
  induction names generalizing t place with
  | nil => exact .refl t
  | cons name names ih =>
      have hlater (t : Tree) : Changes (fun _ => False) (fun p => ∃ front, front ≠ [] ∧
          front <+: name :: names ∧ p = front.foldl Place.step place)
          t (t.ensure (Place.step place name) names).1 := by
        refine (ih t _).mono (fun _ h => h) ?_
        rintro p ⟨front, -, hfront, rfl⟩
        exact ⟨name :: front, List.cons_ne_nil _ _, List.cons_prefix_cons.2 ⟨rfl, hfront⟩, rfl⟩
      rw [ensure]
      split
      · exact .refl t
      · rename_i next hstep
        obtain ⟨-, rfl⟩ := step_eq_ok hstep
        split
        · exact hlater t
        · exact .refl t
        · rename_i hnone
          refine ((changes_put_directory hnone).mono (fun _ h => h) ?_).trans (hlater _)
          rintro p rfl
          exact ⟨[name], List.cons_ne_nil _ _, List.cons_prefix_cons.2 ⟨rfl, List.nil_prefix⟩, rfl⟩

theorem changes_ensureDirectory (t : Tree) (path : String) :
    Changes (fun _ => False) (t.LeadsThrough path) t (t.ensureDirectory path).1 := by
  rw [ensureDirectory]
  split
  · exact .refl t
  split
  · exact changes_ensure t _ _
  · exact .refl t

theorem write?_eq_some {content : List UInt8} (h : t.write? path content = some t') :
    t.walk path = .ok (t.placeOf path) ∧ t.get? (t.placeOf path) ≠ some .directory ∧
      t' = t.put (t.placeOf path) (.file content) := by
  rw [write?] at h
  split at h
  · cases h
  · rename_i q hwalk
    obtain rfl := eq_placeOf_of_walk hwalk
    split at h
    · cases h
    · rename_i hfree
      exact ⟨hwalk, hfree, (Option.some.inj h).symm⟩

/-- A file is written at the place of its path. -/
theorem changes_write? {content : List UInt8} (h : t.write? path content = some t') :
    Changes (· = t.placeOf path) (fun _ => False) t t' ∧
      t'.get? (t.placeOf path) = some (.file content) := by
  obtain ⟨-, hfree, rfl⟩ := write?_eq_some h
  exact ⟨changes_put hfree content, get?_put_self (ne_nil_of_ne_directory hfree)⟩

/-- A file is moved from the place of one path to that of another, where it is then read. -/
theorem changes_move? {source target : String} (h : t.move? source target = some t') :
    Changes (fun p => p = t.placeOf source ∨ p = t.placeOf target) (fun _ => False) t t' ∧
      ∃ content, t.get? (t.placeOf source) = some (.file content) ∧
        t'.read? target = some content ∧
        (t.placeOf source ≠ t.placeOf target → t'.get? (t.placeOf source) = none) := by
  rw [move?] at h
  split at h
  · rename_i a b hsource htarget
    obtain rfl := eq_placeOf_of_walk hsource
    obtain rfl := eq_placeOf_of_walk htarget
    split at h
    · rename_i content hfile
      split at h
      · cases h
      · rename_i hfree
        obtain rfl := Option.some.inj h
        have hnot := ne_directory_of_file hfile
        have hgone : (t.erase (t.placeOf source)).get? (t.placeOf source) = none :=
          get?_erase_self (ne_nil_of_ne_directory hnot)
        have hfree' : (t.erase (t.placeOf source)).get? (t.placeOf target) ≠ some .directory := by
          by_cases hsame : t.placeOf target = t.placeOf source
          · rw [hsame, hgone]
            exact nofun
          · rwa [get?_erase_of_ne hsame]
        have hchanges := ((changes_erase hnot).mono (fun _ hp => Or.inl hp) fun _ hp => hp).trans
          ((changes_put hfree' content).mono (fun _ hp => Or.inr hp) fun _ hp => hp)
        have hput := get?_put_self (t := t.erase (t.placeOf source)) (e := .file content)
          (ne_nil_of_ne_directory hfree')
        refine ⟨hchanges, content, hfile, ?_, fun hne => ?_⟩
        · rw [read?, hchanges.walk_eq_ok htarget]
          simp only [hput]
        · rw [get?_put_of_ne hne, hgone]
    · cases h
  · cases h

/-- A file is removed from the place of its path, and there is nothing left. -/
theorem changes_remove {removal : Removal} (h : t.remove path = (t', removal))
    (hne : removal ≠ .failed) :
    Changes (· = t.placeOf path) (fun _ => False) t t' ∧ t'.Lacks path := by
  rw [remove] at h
  split at h
  · rename_i hwalk
    obtain ⟨rfl, rfl⟩ := Prod.mk.inj h
    exact ⟨.refl t, .inl hwalk⟩
  · obtain ⟨rfl, rfl⟩ := Prod.mk.inj h
    exact absurd rfl hne
  · rename_i q hwalk
    obtain rfl := eq_placeOf_of_walk hwalk
    split at h
    · rename_i content hfile
      obtain ⟨rfl, rfl⟩ := Prod.mk.inj h
      have hnot := ne_directory_of_file hfile
      have hchanges := changes_erase hnot
      refine ⟨hchanges, .inr ⟨?_, ?_⟩⟩
      · rw [hchanges.placeOf_eq]
        exact hchanges.walk_eq_ok hwalk
      · rw [hchanges.placeOf_eq]
        exact get?_erase_self (ne_nil_of_ne_directory hnot)
    · obtain ⟨rfl, rfl⟩ := Prod.mk.inj h
      exact absurd rfl hne
    · rename_i hnone
      obtain ⟨rfl, rfl⟩ := Prod.mk.inj h
      exact ⟨.refl t, .inr ⟨hwalk, hnone⟩⟩

end Tree

end LinkSieve.Files
