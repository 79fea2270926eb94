import LinkSieve.Proofs.Link.Dispatcher

/-!
# Rules and banned words only filter

What the user configured enters the processing of a line in one place, where the screen of a
protocol judges the draft of a line. There a rule can only turn an acceptance into an objection of
the rule, and banned words can only turn an outcome into the mention of such a word. So no
configuration changes what an accepted line becomes, and none accepts a line that is rejected
without rules and words.
-/

namespace LinkSieve.Link

open Policy (Rule RuleSet WordList)

/-- An outcome is a rejection of a given kind. -/
def IsRejected {ε : Type} [Refusal ε] (kind : Rejection.Kind) (outcome : Except ε String) : Prop :=
  ∃ r, outcome = .error r ∧ Refusal.kind r = kind

namespace Screen

theorem judge_eq (screen : Screen) (title : String) (draft : Draft) :
    screen.judge title draft =
      screen.checkLabel draft.label >>= fun _ => draft.params >>= fun params =>
        screen.enforce title params >>= fun _ => .ok draft.canonical := rfl

theorem checkLabel_cases (screen : Screen) (label : String) :
    screen.checkLabel label = .ok () ∨
      ∃ word, screen.checkLabel label = .error (.bannedWord word) := by
  rw [checkLabel]
  cases screen.words.find? label with
  | none => exact .inl rfl
  | some word => exact .inr ⟨word, rfl⟩

theorem enforce_cases (screen : Screen) (title : String) (params : Table String) :
    screen.enforce title params = .ok () ∨
      ∃ v, screen.enforce title params = .error (.violation title v) := by
  rw [enforce]
  cases screen.rule.bind (·.violation? params) with
  | none => exact .inl rfl
  | some v => exact .inr ⟨v, rfl⟩

theorem checkLabel_without_words (rule : Option Rule) (label : String) :
    (Screen.mk rule .empty).checkLabel label = .ok () := by
  have hnone : WordList.empty.find? label = none := ite_self none
  rw [checkLabel, hnone]

/-- A rule leaves the judgement of a draft as it is, or objects to an accepted one. -/
theorem judge_rule (rule : Option Rule) (words : WordList) (title : String) (draft : Draft) :
    (Screen.mk rule words).judge title draft = (Screen.mk none words).judge title draft ∨
      (∃ text, (Screen.mk none words).judge title draft = .ok text) ∧
        IsRejected .disallowed ((Screen.mk rule words).judge title draft) := by
  have hlabel : (Screen.mk rule words).checkLabel draft.label =
      (Screen.mk none words).checkLabel draft.label := rfl
  have hfree : ∀ params, (Screen.mk none words).enforce title params = .ok () := fun _ => rfl
  rw [judge_eq, judge_eq, hlabel]
  cases (Screen.mk none words).checkLabel draft.label with
  | error r => exact .inl rfl
  | ok =>
      cases draft.params with
      | error r => exact .inl rfl
      | ok params =>
          simp only [Outcome.ok_bind, hfree]
          rcases (Screen.mk rule words).enforce_cases title params with hok | ⟨v, hv⟩
          · left
            rw [hok, Outcome.ok_bind]
          · right
            rw [hv]
            exact ⟨⟨_, rfl⟩, _, rfl, rfl⟩

/-- Banned words leave the judgement of a draft as it is, or one of them is the reason to reject
it. -/
theorem judge_words (rule : Option Rule) (words : WordList) (title : String) (draft : Draft) :
    (Screen.mk rule words).judge title draft = (Screen.mk rule .empty).judge title draft ∨
      IsRejected .bannedContent ((Screen.mk rule words).judge title draft) := by
  rw [judge_eq, judge_eq, checkLabel_without_words]
  rcases (Screen.mk rule words).checkLabel_cases draft.label with hok | ⟨word, hword⟩
  · left
    rw [hok]
    rfl
  · right
    rw [hword]
    exact ⟨_, rfl, rfl⟩

end Screen

namespace Dispatcher

/-- A line is rejected for the same reason under every configuration, or its draft is judged by the
screen that the configuration has for its protocol. -/
theorem process_cases (line : String) :
    (∃ r, ∀ rules words, (ofRules rules words).process line = .error r) ∨
      ∃ (p : Protocol) (draft : Draft), ∀ rules words, (ofRules rules words).process line =
        (Screen.forProtocol rules p.scheme words).judge p.title draft := by
  have hfind (rules : RuleSet) (words : WordList) :
      (ofRules rules words).canonicalizers.find? (·.protocol.claims line) =
        (Protocol.all.find? (·.claims line)).map fun p =>
          ⟨p, Screen.forProtocol rules p.scheme words⟩ := List.find?_map
  simp only [process_eq, hfind]
  cases checkLength line with
  | error r => exact .inl ⟨r, fun _ _ => rfl⟩
  | ok =>
      cases Protocol.all.find? (·.claims line) with
      | none => exact .inl ⟨.unsupported, fun _ _ => rfl⟩
      | some p =>
          simp only [Outcome.ok_bind, Option.map_some, Canonicalizer.process]
          cases p.draft line with
          | error r => exact .inl ⟨r, fun _ _ => rfl⟩
          | ok draft => exact .inr ⟨p, draft, fun _ _ => rfl⟩

/-- Rules leave an outcome as it is, or object to a line that is accepted without them. -/
theorem process_rules (rules : RuleSet) (words : WordList) (line : String) :
    (ofRules rules words).process line = (ofRules .empty words).process line ∨
      (∃ text, (ofRules .empty words).process line = .ok text) ∧
        IsRejected .disallowed ((ofRules rules words).process line) := by
  rcases process_cases line with ⟨r, hr⟩ | ⟨p, draft, hjudge⟩
  · exact .inl ((hr rules words).trans (hr .empty words).symm)
  · rw [hjudge rules words, hjudge .empty words]
    exact Screen.judge_rule _ words p.title draft

/-- Banned words leave an outcome as it is, or one of them is the reason to reject the line. -/
theorem process_words (rules : RuleSet) (words : WordList) (line : String) :
    (ofRules rules words).process line = (ofRules rules .empty).process line ∨
      IsRejected .bannedContent ((ofRules rules words).process line) := by
  rcases process_cases line with ⟨r, hr⟩ | ⟨p, draft, hjudge⟩
  · exact .inl ((hr rules words).trans (hr rules .empty).symm)
  · rw [hjudge rules words, hjudge rules .empty]
    exact Screen.judge_words _ words p.title draft

/-- What is accepted under some configuration is accepted without rules and words, in the same
canonical form. -/
theorem process_empty_of_process {rules : RuleSet} {words : WordList} {line text : String}
    (h : (ofRules rules words).process line = .ok text) :
    (ofRules .empty .empty).process line = .ok text := by
  have hrules : (ofRules .empty words).process line = .ok text := by
    rcases process_rules rules words line with hsame | ⟨-, r, hr, -⟩
    · exact hsame ▸ h
    · rw [hr] at h
      cases h
  rcases process_words .empty words line with hsame | ⟨r, hr, -⟩
  · exact hsame ▸ hrules
  · rw [hr] at hrules
    cases hrules

/-- Rules and banned words are filters: compared with the same configuration without rules, an
outcome is the same or an objection of a rule to an accepted line; compared with the one without
words, it is the same or a rejection for a banned word. So configurations that accept a line agree
on its canonical form, and none accepts a line that is rejected without rules and words. -/
theorem process_filters (rules : RuleSet) (words : WordList) (line : String) :
    ((ofRules rules words).process line = (ofRules .empty words).process line ∨
        (∃ text, (ofRules .empty words).process line = .ok text) ∧
          IsRejected .disallowed ((ofRules rules words).process line)) ∧
      ((ofRules rules words).process line = (ofRules rules .empty).process line ∨
        IsRejected .bannedContent ((ofRules rules words).process line)) ∧
      (∀ rules' words' text text', (ofRules rules words).process line = .ok text →
        (ofRules rules' words').process line = .ok text' → text = text') ∧
      ∀ r, (ofRules .empty .empty).process line = .error r →
        ∃ r', (ofRules rules words).process line = .error r' := by
  refine ⟨process_rules rules words line, process_words rules words line, ?_, ?_⟩
  · intro rules' words' text text' h h'
    have hsame := (process_empty_of_process h).symm.trans (process_empty_of_process h')
    exact Except.ok.inj hsame
  · intro r hr
    cases h : (ofRules rules words).process line with
    | error r' => exact ⟨r', rfl⟩
    | ok text =>
        rw [process_empty_of_process h] at hr
        cases hr

/-- A line that a rule on its security and a list of banned words both let pass, and one that
neither makes acceptable. -/
theorem process_filters_trojan :
    (∃ text text',
        (ofRules (.ofList [("trojan", { allowed := .ofList [("security", ["tls"])] })])
            .empty).process "trojan://pw@a.b:1?type=ws&security=tls#fine" = .ok text ∧
          (ofRules .empty ⟨["spam"]⟩).process
            "trojan://pw@a.b:1?type=ws&security=tls#fine" = .ok text' ∧
          text = text') ∧
      ∃ r, (ofRules .empty ⟨["spam"]⟩).process "trojan://a.b:1" = .error r :=
  ⟨⟨_, _, rfl, rfl, (process_filters
      (.ofList [("trojan", { allowed := .ofList [("security", ["tls"])] })]) .empty
      "trojan://pw@a.b:1?type=ws&security=tls#fine").2.2.1 .empty ⟨["spam"]⟩ _ _ rfl rfl⟩,
    (process_filters .empty ⟨["spam"]⟩ "trojan://a.b:1").2.2.2 _ rfl⟩

end Dispatcher

end LinkSieve.Link
