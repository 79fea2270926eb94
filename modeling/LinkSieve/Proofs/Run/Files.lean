import LinkSieve.Proofs.Files.Tree
import LinkSieve.Proofs.Run.Actions

/-!
# What a run does to files

A run reads everything before it writes anything, so one that fails while it reads leaves all files
alone. One that succeeds changes the places of its two outputs and of their drafts, and makes the
directories that the outputs are to stand in. Everything else is as it was, whatever else stands in
the tree.

The draft of the accepted links is gone afterwards as a file. It can be there as a directory, if the
path of the rejected lines leads through it: that directory is made after the draft has been moved
away.
-/

namespace LinkSieve.Run

open Subscription (Report)
open Files (Entry Place Tree)
open Files.Tree (Changes)

/-- A place that the path to the directory of a file leads through. -/
def IsOnTheWay (t : Tree) (path : String) (place : Place) : Prop :=
  ∃ parent, Files.Path.parent? path = some parent ∧ t.LeadsThrough parent place

/-- The way to a file is a matter of the text of its path and of the working directory. -/
theorem isOnTheWay_iff {files directories : Place → Prop} {t t' : Tree} {path : String}
    {place : Place} (h : Changes files directories t t') :
    IsOnTheWay t' path place ↔ IsOnTheWay t path place := by
  simp only [IsOnTheWay, Tree.LeadsThrough, h.start_eq]

/-- A text has been placed at a path, and no more than that has happened to a tree. -/
structure Placed (path text : String) (t t' : Tree) : Prop where
  changes : Changes (fun p => p = t.placeOf path ∨ p = t.placeOf (draftPath path))
    (IsOnTheWay t path) t t'
  read : t'.read? path = some (Text.Utf8.encode text.toList)
  draft : t.placeOf (draftPath path) ≠ t.placeOf path → t'.get? (t.placeOf (draftPath path)) = none

section Place

variable {s s' : Enclosed} {path text : String} {failure : Failure}

theorem reaches_need {action : StateM Enclosed Bool} {a : Unit}
    (h : Reaches (Surroundings.need action failure) s a s') : action s = (true, s') := by
  have hrun : (Surroundings.need action failure).run s =
      (if (action s).1 then pure () else throw failure : Action Unit).run (action s).2 := rfl
  rw [Reaches, hrun] at h
  split at h
  · rename_i hdone
    cases h
    exact Prod.ext hdone rfl
  · cases h

/-- What replaces the tree succeeds with the new tree. -/
theorem replaceTree_eq_true (tree? : Tree → Option Tree)
    (h : Enclosed.replaceTree tree? s = (true, s')) :
    ∃ tree, tree? s.tree = some tree ∧ s' = { s with tree } := by
  rw [Enclosed.replaceTree] at h
  split at h
  · rename_i tree htree
    obtain ⟨-, rfl⟩ := Prod.mk.inj h
    exact ⟨tree, htree, rfl⟩
  · cases h

theorem reaches_writeFile {content : List UInt8} {a : Unit}
    (h : Reaches (Surroundings.need (Enclosed.surroundings.writeFile path content) failure)
      s a s') :
    ∃ tree, s.tree.write? path content = some tree ∧ s' = { s with tree } :=
  replaceTree_eq_true (·.write? path content) (reaches_need h)

theorem reaches_moveFile {source target : String} {a : Unit}
    (h : Reaches (Surroundings.need (Enclosed.surroundings.moveFile source target) failure)
      s a s') :
    ∃ tree, s.tree.move? source target = some tree ∧ s' = { s with tree } :=
  replaceTree_eq_true (·.move? source target) (reaches_need h)

theorem reaches_ensureDirectory {a : Unit}
    (h : Reaches (Surroundings.need (Enclosed.surroundings.ensureDirectory path) failure) s a s') :
    s' = { s with tree := (s.tree.ensureDirectory path).1 } :=
  (congrArg Prod.snd (reaches_need h)).symm

/-- A text that is written under the draft path of a path, in a tree in which no more than
directories on the way have been made, and then moved is placed at the path. -/
theorem placed_of_reaches {t : Tree}
    (hway : Changes (fun _ => False) (IsOnTheWay t path) t s.tree)
    (h : Reaches (do
      Surroundings.need (Enclosed.surroundings.writeFile (draftPath path)
        (Text.Utf8.encode text.toList)) (.fileNotWritten (draftPath path))
      Surroundings.need (Enclosed.surroundings.moveFile (draftPath path) path)
        (.fileNotMoved path)) s () s') :
    Placed path text t s'.tree ∧ s' = { s with tree := s'.tree } := by
  obtain ⟨_, s₁, hwrite, hmove⟩ := reaches_bind.1 h
  obtain ⟨written, hwritten, rfl⟩ := reaches_writeFile hwrite
  obtain ⟨moved, hmoved, rfl⟩ := reaches_moveFile hmove
  obtain ⟨hdraft, hcontent⟩ := Files.Tree.changes_write? hwritten
  obtain ⟨hplace, content, hsource, hread, hgone⟩ := Files.Tree.changes_move? hmoved
  simp only [hdraft.placeOf_eq, hway.placeOf_eq] at hdraft hcontent hplace hsource hgone
  refine ⟨⟨?_, ?_, hgone⟩, rfl⟩
  · refine Changes.trans ?_ (hplace.mono (fun _ hp => hp.symm) fun _ hp => hp.elim)
    exact (hway.mono (fun _ hp => hp.elim) fun _ hp => hp).trans
      (hdraft.mono (fun _ hp => Or.inr hp) fun _ hp => hp.elim)
  · rw [hsource] at hcontent
    rwa [Entry.file.inj (Option.some.inj hcontent)] at hread

theorem reaches_place (h : Reaches (Enclosed.surroundings.place path text) s () s') :
    Placed path text s.tree s'.tree ∧ s' = { s with tree := s'.tree } := by
  rw [Surroundings.place] at h
  split at h
  · exact placed_of_reaches (.refl _) h
  · exact placed_of_reaches (.refl _) h
  · rename_i parent _ hparent
    obtain ⟨_, s₁, hmade, h⟩ := reaches_bind.1 h
    obtain rfl := reaches_ensureDirectory hmade
    have hway : Changes (fun _ => False) (IsOnTheWay s.tree path) s.tree
        (s.tree.ensureDirectory parent).1 :=
      (Files.Tree.changes_ensureDirectory s.tree parent).mono (fun _ hp => hp)
        fun _ hp => ⟨parent, hparent, hp⟩
    obtain ⟨hplaced, hrest⟩ := placed_of_reaches hway h
    exact ⟨hplaced, hrest⟩

/-- What is discarded is not there afterwards, and no more than that has happened to a tree. -/
theorem reaches_discard (h : Reaches (Enclosed.surroundings.discard path) s () s') :
    (Changes (· = s.tree.placeOf path) (fun _ => False) s.tree s'.tree ∧ s'.tree.Lacks path) ∧
      s' = { s with tree := s'.tree } := by
  obtain ⟨removal, s₁, hremove, h⟩ := reaches_bind.1 h
  have hs₁ : removal ≠ .failed ∧ s' = s₁ := by
    split at h
    · cases h
    · cases h
      exact ⟨nofun, rfl⟩
    · cases h
      exact ⟨nofun, rfl⟩
  obtain ⟨hne, rfl⟩ := hs₁
  cases hremove
  exact ⟨Files.Tree.changes_remove rfl hne, rfl⟩

end Place

/-- The places that the outputs and their drafts are written to. -/
def placesOf (t : Tree) (output rejected : String) : List Place :=
  [t.placeOf output, t.placeOf (draftPath output),
    t.placeOf rejected, t.placeOf (draftPath rejected)]

/-- The lines that a report rejects stand at a path, or nothing does without any, and no more than
that has happened to a tree. -/
structure Reported (path : String) (report : Report) (t t' : Tree) : Prop where
  changes : Changes (fun p => p = t.placeOf path ∨ p = t.placeOf (draftPath path))
    (fun p => report.rejected ≠ [] ∧ IsOnTheWay t path p) t t'
  read : report.rejected ≠ [] → t'.read? path = some (Text.Utf8.encode report.rejectedText.toList)
  lacks : report.rejected = [] → t'.Lacks path

/-- What a run that has succeeded leaves of a tree. -/
structure Settled (t t' : Tree) (output rejected : String) (finished : Finished) : Prop where
  accepted_read : t'.read? output = some (Text.Utf8.encode finished.output.toList)
  draft : t'.get? (t.placeOf (draftPath output)) = none ∨
    t'.get? (t.placeOf (draftPath output)) = some .directory ∧
      finished.report.rejected ≠ [] ∧ IsOnTheWay t rejected (t.placeOf (draftPath output))
  rejected_read : finished.report.rejected ≠ [] →
    t'.read? rejected = some (Text.Utf8.encode finished.report.rejectedText.toList)
  rejected_lacks : finished.report.rejected = [] → t'.Lacks rejected
  file : ∀ p content, p ∉ placesOf t output rejected → t.get? p = some (.file content) →
    t'.get? p = some (.file content)
  changes : Changes (· ∈ placesOf t output rejected)
    (fun p => IsOnTheWay t output p ∨ IsOnTheWay t rejected p) t t'

/-- The rejected lines are written after the accepted links, which they leave where they are. Only
a directory can come to stand where the draft of the links was. -/
theorem settled_of_placed {t t₁ t' : Tree} {output rejected : String} {finished : Finished}
    (hdifferent : (placesOf t output rejected).Nodup)
    (hplaced : Placed output finished.output t t₁)
    (hreported : Reported rejected finished.report t₁ t') :
    Settled t t' output rejected finished := by
  have hlater := hreported.changes
  simp only [hplaced.changes.placeOf_eq, isOnTheWay_iff hplaced.changes] at hlater
  have hchanges : Changes (· ∈ placesOf t output rejected)
      (fun p => IsOnTheWay t output p ∨ IsOnTheWay t rejected p) t t' := by
    refine (hplaced.changes.mono (fun p hp => ?_) fun p hp => .inl hp).trans
      (hlater.mono (fun p hp => ?_) fun p hp => .inr hp.2)
    · rcases hp with rfl | rfl <;> simp [placesOf]
    · rcases hp with rfl | rfl <;> simp [placesOf]
  simp only [placesOf, List.nodup_cons, List.mem_cons, List.not_mem_nil, or_false,
    not_or] at hdifferent
  obtain ⟨⟨hod, hor, hord⟩, ⟨hdr, hdrd⟩, -⟩ := hdifferent
  refine ⟨?_, ?_, hreported.read, hreported.lacks, fun p content => hchanges.get?_file, hchanges⟩
  · refine hlater.read?_eq_some ?_ hplaced.read
    rw [hplaced.changes.placeOf_eq]
    exact not_or.2 ⟨hor, hord⟩
  · have hnone := hplaced.draft (Ne.symm hod)
    rcases hlater.elsewhere _ (not_or.2 ⟨hdr, hdrd⟩) with hsame | ⟨-, hnew, hmade⟩
    · exact .inl (hsame.trans hnone)
    · exact .inr ⟨hnew, hmade⟩

section Outputs

variable {s s' : Enclosed} {path text : String} {report : Report} {a : Unit}

theorem reaches_writeOutput
    (h : Reaches (Enclosed.surroundings.writeOutput (some path) text) s a s') :
    Placed (Files.Path.expandHome s.home path) text s.tree s'.tree ∧
      s' = { s with tree := s'.tree } := by
  obtain ⟨expanded, hexpand, h⟩ := (leaves_expand path).exists_of_reaches_bind h
  obtain ⟨rfl, -⟩ := reaches_expand.1 hexpand
  exact reaches_place h

theorem reaches_writeRejected
    (h : Reaches (Enclosed.surroundings.writeRejected (some path) report) s a s') :
    Reported (Files.Path.expandHome s.home path) report s.tree s'.tree ∧
      s' = { s with tree := s'.tree } := by
  obtain ⟨expanded, hexpand, h⟩ := (leaves_expand path).exists_of_reaches_bind h
  obtain ⟨rfl, -⟩ := reaches_expand.1 hexpand
  split at h
  · rename_i hempty
    have hnil : report.rejected = [] := List.isEmpty_iff.1 hempty
    obtain ⟨⟨hchanges, hlacks⟩, hrest⟩ := reaches_discard h
    refine ⟨⟨?_, fun hne => absurd hnil hne, fun _ => hlacks⟩, hrest⟩
    exact hchanges.mono (fun _ hp => .inl hp) fun _ hp => hp.elim
  · rename_i hempty
    have hne : report.rejected ≠ [] := fun hnil => hempty (List.isEmpty_iff.2 hnil)
    obtain ⟨hplaced, hrest⟩ := reaches_place h
    refine ⟨⟨?_, fun _ => hplaced.read, fun hnil => absurd hnil hne⟩, hrest⟩
    exact hplaced.changes.mono (fun _ hp => hp) fun _ hp => ⟨hne, hp⟩

end Outputs

namespace Surroundings

variable {m : Type → Type} [Monad m] (s : Surroundings m)

/-- All that a run does before it writes: it gets its settings and what it is to show. -/
def load (args : Arguments) : ExceptT Failure m (Settings × Finished) := do
  let settings := args.applyTo (← s.settings args.config)
  let rules ← s.rules settings.rules
  let words ← s.words settings.bannedWords
  let body ← s.subscription settings.input
  return (settings, filter settings rules words body)

/-- All that a run writes. -/
def finish (settings : Settings) (finished : Finished) : ExceptT Failure m Unit := do
  s.writeOutput settings.output finished.output
  s.writeRejected settings.rejectedOutput finished.report

theorem run_eq [LawfulMonad m] (args : Arguments) : s.run args = (do
    let (settings, finished) ← s.load args
    s.finish settings finished
    return finished) := by
  simp only [run, load, finish, bind_assoc, pure_bind]

end Surroundings

section Run

variable {s s' : Enclosed} {args : Arguments} {finished : Finished}

theorem leaves_load (args : Arguments) :
    Leaves Enclosed.tree (Enclosed.surroundings.load args) := by
  refine (leaves_settings _).of_id.bind fun base => ?_
  refine (leaves_rules _).of_id.bind fun rules => ?_
  refine (leaves_words _).of_id.bind fun words => ?_
  exact (leaves_subscription _).bind fun body => leaves_pure _

/-- The settings under which a run is done. -/
def AreSettings (args : Arguments) (s : Enclosed) (settings : Settings) : Prop :=
  ∃ base, Reaches (Enclosed.surroundings.settings args.config) s base s ∧
    settings = args.applyTo base

/-- The settings, rules, words and body that a run reads. -/
structure Reads (args : Arguments) (s : Enclosed) (settings : Settings) (rules : Policy.RuleSet)
    (words : Policy.WordList) (body : List UInt8) (s' : Enclosed) : Prop where
  settings_of : AreSettings args s settings
  rules : Reaches (Enclosed.surroundings.rules settings.rules) s rules s
  words : Reaches (Enclosed.surroundings.words settings.bannedWords) s words s
  body : Reaches (Enclosed.surroundings.subscription settings.input) s body s'

theorem reads_of_reaches {settings : Settings}
    (h : Reaches (Enclosed.surroundings.load args) s (settings, finished) s') :
    ∃ rules words body, Reads args s settings rules words body s' ∧
      finished = filter settings rules words body := by
  obtain ⟨base, hbase, h⟩ := (leaves_settings _).exists_of_reaches_bind h
  obtain ⟨rules, hrules, h⟩ := (leaves_rules _).exists_of_reaches_bind h
  obtain ⟨words, hwords, h⟩ := (leaves_words _).exists_of_reaches_bind h
  obtain ⟨body, s₁, hbody, h⟩ := reaches_bind.1 h
  obtain ⟨hpair, rfl⟩ := reaches_pure.1 h
  obtain ⟨rfl, rfl⟩ := Prod.mk.inj hpair
  exact ⟨rules, words, body, ⟨⟨base, hbase, rfl⟩, hrules, hwords, hbody⟩, rfl⟩

/-- The input and both outputs of settings are files and, together with the drafts of the outputs,
five different ones. -/
structure HasFiles (settings : Settings) (s : Enclosed) (input output rejected : String) :
    Prop where
  input_ne : settings.input ≠ standardInput
  input_eq : Files.Path.expandHome s.home settings.input = input
  output_eq : settings.output.map (Files.Path.expandHome s.home) = some output
  rejected_eq : settings.rejectedOutput.map (Files.Path.expandHome s.home) = some rejected
  different : (s.tree.placeOf input :: placesOf s.tree output rejected).Nodup

/-- What a run writes settles the tree. -/
theorem settled_of_finish {settings : Settings} {input output rejected : String} {a : Unit}
    (hfiles : HasFiles settings s input output rejected)
    (h : Reaches (Enclosed.surroundings.finish settings finished) s a s') :
    Settled s.tree s'.tree output rejected finished ∧ s' = { s with tree := s'.tree } := by
  obtain ⟨-, -, houtput, hrejected, hdifferent⟩ := hfiles
  obtain ⟨path, hpath, rfl⟩ := Option.map_eq_some_iff.1 houtput
  obtain ⟨path', hpath', rfl⟩ := Option.map_eq_some_iff.1 hrejected
  rw [Surroundings.finish, hpath, hpath'] at h
  obtain ⟨_, s₁, hwrite, hreport⟩ := reaches_bind.1 h
  obtain ⟨hplaced, hs₁⟩ := reaches_writeOutput hwrite
  obtain ⟨hreported, hs'⟩ := reaches_writeRejected hreport
  rw [hs₁] at hreported hs'
  exact ⟨settled_of_placed (List.nodup_cons.1 hdifferent).2 hplaced hreported, hs'⟩

/-- A run that succeeds writes what it has made of its files to its outputs and changes no other
file; one that fails before it writes changes nothing. -/
theorem run_keeps_to_own_files (s : Enclosed) (args : Arguments) :
    (∀ settings input output rejected finished s', AreSettings args s settings →
      HasFiles settings s input output rejected →
      Reaches (Enclosed.surroundings.run args) s finished s' →
      (∃ rules words body, Reads args s settings rules words body s ∧
        s.tree.read? input = some body ∧ finished = filter settings rules words body) ∧
      Settled s.tree s'.tree output rejected finished ∧ s' = { s with tree := s'.tree }) ∧
    (∀ failure s', Fails (Enclosed.surroundings.load args) s failure s' →
      Fails (Enclosed.surroundings.run args) s failure s' ∧ s'.tree = s.tree) := by
  constructor
  · intro settings input output rejected finished s' hsettings hfiles hrun
    rw [Surroundings.run_eq] at hrun
    obtain ⟨⟨settings', finished'⟩, s₁, hload, hrun⟩ := reaches_bind.1 hrun
    obtain ⟨_, s₂, hfinish, hrun⟩ := reaches_bind.1 hrun
    obtain ⟨rfl, rfl⟩ := reaches_pure.1 hrun
    obtain ⟨rules, words, body, hreads, hfinished⟩ := reads_of_reaches hload
    obtain rfl : settings = settings' := by
      obtain ⟨base, hbase, rfl⟩ := hsettings
      obtain ⟨base', hbase', rfl⟩ := hreads.settings_of
      rw [(hbase.unique hbase').1]
    obtain ⟨hread, rfl⟩ := reaches_subscription hfiles.input_ne hreads.body
    rw [hfiles.input_eq] at hread
    exact ⟨⟨rules, words, body, hreads, hread, hfinished⟩, settled_of_finish hfiles hfinish⟩
  · intro failure s' hload
    have hsame := leaves_load args s
    rw [hload] at hsame
    rw [Surroundings.run_eq]
    exact ⟨hload.bind, hsame⟩

end Run

/-- A system whose working directory holds one file. -/
def holding (name text : String) : Enclosed where
  tree := (Tree.ofHere ["work"]).put ["work", name] (.file (Text.Utf8.encode text.toList))

/-- The arguments for a run from one file to two others. -/
def fromTo (input output rejected : String) : Arguments where
  input := some input
  output := some output
  rejected := some rejected

theorem areSettings_fromTo (s : Enclosed) (input output rejected : String) :
    AreSettings (fromTo input output rejected) s
      { input, output := some output, rejectedOutput := some rejected } :=
  ⟨{}, rfl, rfl⟩

/-- From a line that is no link, a run writes an empty output and a report; from a file that is not
there, it writes nothing. -/
theorem run_keeps_to_own_files_in_directory :
    let s := holding "in" "bad line"
    (∃ finished s', Reaches (Enclosed.surroundings.run (fromTo "in" "out" "rej")) s finished s' ∧
      Settled s.tree s'.tree "out" "rej" finished) ∧
    ∃ failure s', Fails (Enclosed.surroundings.run (fromTo "none" "out" "rej")) s failure s' ∧
      s'.tree = s.tree := by
  intro s
  constructor
  · have hok : ((Enclosed.surroundings.run (fromTo "in" "out" "rej")).run s).1.isOk = true := by
      decide +kernel
    obtain ⟨finished, hrun⟩ := exists_reaches hok
    have hfiles : HasFiles { input := "in", output := some "out", rejectedOutput := some "rej" } s
        "in" "out" "rej" := ⟨by decide, rfl, rfl, rfl, by decide +kernel⟩
    have hsettled := (run_keeps_to_own_files s (fromTo "in" "out" "rej")).1 _ "in" "out" "rej"
      finished _ (areSettings_fromTo s "in" "out" "rej") hfiles hrun
    exact ⟨finished, _, hrun, hsettled.2.1⟩
  · have hfails : ((Enclosed.surroundings.load (fromTo "none" "out" "rej")).run s).1.isOk =
        false := by decide +kernel
    obtain ⟨failure, hload⟩ := exists_fails hfails
    exact ⟨failure, _, (run_keeps_to_own_files s (fromTo "none" "out" "rej")).2 failure _ hload⟩

/-- The draft of the accepted links is there as a directory after a run that writes the rejected
lines by way of it, although all places are different. -/
theorem draft_is_directory :
    let s := holding "in" "bad line"
    let args := fromTo "in" "out" "out.tmp/../rej"
    ∃ settings finished s', AreSettings args s settings ∧
      HasFiles settings s "in" "out" "out.tmp/../rej" ∧
      Reaches (Enclosed.surroundings.run args) s finished s' ∧
      s'.tree.get? (s.tree.placeOf (draftPath "out")) = some .directory := by
  intro s args
  have hok : ((Enclosed.surroundings.run args).run s).1.isOk = true := by decide +kernel
  obtain ⟨finished, hrun⟩ := exists_reaches hok
  exact ⟨_, finished, _, areSettings_fromTo s _ _ _,
    ⟨by decide, rfl, rfl, rfl, by decide +kernel⟩, hrun, by decide +kernel⟩

end LinkSieve.Run
