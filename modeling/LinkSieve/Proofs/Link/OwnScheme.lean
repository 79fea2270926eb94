import LinkSieve.Proofs.Link.Canonical
import LinkSieve.Proofs.Link.Rejection

/-!
# A line and its scheme

The scheme of a line is looked at twice: once to find the protocol that claims the line, and once
when the protocol reads it, from a URL, from the line itself or from an expanded line. The two never
disagree, so no line is rejected for its scheme after it has been claimed, and what a protocol makes
of a line is claimed by that protocol again.
-/

namespace LinkSieve.Link

namespace Rejection

/-- The objections of a format to the scheme of a line. -/
def IsSchemeMismatch : Rejection → Prop
  | .wrongScheme _ | .wrongHysteriaScheme | .notVmess => True
  | _ => False

/-- The wording of reasons that are never given: that a line has not the scheme of the format that
claimed it, and that the fields of a link cannot be written. For the latter there is no rejection at
all, since every value of JSON has a text. -/
def idleReasons : List String :=
  ["invalid VLESS URL scheme", "invalid Trojan URL scheme", "invalid Shadowsocks URL scheme",
    "invalid Hysteria2 scheme (expected 'hysteria2' or 'hy2')", "not a VMess link",
    "failed to re-encode VMess config"]

variable {r : Rejection} {rules : Policy.RuleSet}

theorem Arises.not_isSchemeMismatch (h : r.Arises rules) : ¬r.IsSchemeMismatch := by
  cases h with
  | tooLong | unsupported | word | rule => exact id
  | format hr =>
      cases r with
      | wrongScheme | wrongHysteriaScheme | notVmess => exact hr.elim
      | _ => exact id

/-- A wording is told from the idle ones by its first letter. -/
theorem append_not_mem_idleReasons {start rest : String} {c : Char}
    (hstart : start.toList.head? = some c) (hc : c ∉ "inf".toList) :
    start ++ rest ∉ idleReasons := by
  have hall : ∀ reason ∈ idleReasons, reason.toList.head?.all (· ∈ "inf".toList) = true :=
    Text.forall_of_all (by decide)
  intro hmem
  have hfirst := hall _ hmem
  rw [String.toList_append, List.head?_append, hstart] at hfirst
  exact hc (of_decide_eq_true hfirst)

theorem IsFor.reason_not_mem_idleReasons {p : Protocol} (h : r.IsFor p.title) :
    r.reason ∉ idleReasons := by
  unfold reason
  cases r with
  | bannedWord | violation | wrongScheme | wrongHysteriaScheme | notVmess => exact h.elim
  | badUrl | missingHost | missingPort | portOutOfRange | badHost =>
      obtain rfl := h
      cases p <;> decide
  | unknownObfuscation method =>
      simp only [String.append_assoc]
      exact append_not_mem_idleReasons (c := 'H') (by decide) (by decide)
  | _ => decide

/-- None of the reasons that arise is worded as an objection to a scheme. -/
theorem Arises.reason_not_mem_idleReasons (h : r.Arises rules) : r.reason ∉ idleReasons := by
  cases h with
  | tooLong | unsupported =>
      unfold reason
      decide
  | format hr => exact hr.reason_not_mem_idleReasons
  | word word =>
      change "bad word in name: " ++ Text.quoted word ∉ idleReasons
      exact append_not_mem_idleReasons (c := 'b') (by decide) (by decide)
  | @rule p _ v =>
      have htitle : ∃ c, p.title.toList.head? = some c ∧ c ∉ "inf".toList := by
        cases p <;> exact ⟨_, rfl, by decide⟩
      obtain ⟨c, hc, hout⟩ := htitle
      change p.title ++ ": " ++ v.message ∉ idleReasons
      rw [String.append_assoc]
      exact append_not_mem_idleReasons hc hout

end Rejection

theorem Protocol.IsWritten.claims {p : Protocol} {text : String} (h : p.IsWritten text) :
    p.claims text = true := by
  obtain ⟨s, hs, rest, htext⟩ := h.scheme
  have hscheme := hasScheme_ofList s rest
  rw [List.append_assoc, ← htext, String.ofList_toList] at hscheme
  exact List.any_eq_true.2 ⟨s, hs, hscheme⟩

namespace Dispatcher

/-- No line is rejected for its scheme by the protocol that claims it, nor because its fields cannot
be written, and what a line is accepted as is claimed by the canonicalizer that claims the line. -/
theorem process_own_scheme (rules : Policy.RuleSet) (words : Policy.WordList) (line : String) :
    (∀ r, (ofRules rules words).process line = .error r →
      ¬r.IsSchemeMismatch ∧ r.reason ∉ Rejection.idleReasons) ∧
    ∀ text, (ofRules rules words).process line = .ok text →
      ∃ c, (ofRules rules words).canonicalizers.find? (·.protocol.claims line) = some c ∧
        c.protocol.claims text = true := by
  constructor
  · intro r hr
    have harises := meets_process rules words line
    rw [hr] at harises
    exact ⟨harises.not_isSchemeMismatch, harises.reason_not_mem_idleReasons⟩
  · intro text htext
    obtain ⟨p, hp⟩ := exists_claims_of_process htext
    obtain ⟨draft, hdraft, rfl⟩ := exists_draft_of_process hp htext
    exact ⟨⟨p, Screen.forProtocol rules p.scheme words⟩, find?_canonicalizers hp,
      (Protocol.isWritten_canonical hdraft).claims⟩

/-- A link in legacy form under a scheme in upper case, which is expanded before it is read, and a
line that is not a URL. -/
theorem process_own_scheme_legacy :
    ((ofRules .empty .empty).process "SS://YWVzOnBAYS5iOjE=#" = .ok "ss://YWVzOnA@a.b:1" ∧
      ∃ c, (ofRules .empty .empty).canonicalizers.find?
          (·.protocol.claims "SS://YWVzOnBAYS5iOjE=#") = some c ∧
        c.protocol.claims "ss://YWVzOnA@a.b:1" = true) ∧
      (ofRules .empty .empty).process "trojan://a b" = .error (.badUrl "Trojan") ∧
        (Rejection.badUrl "Trojan").reason ∉ Rejection.idleReasons := by
  have haccepted : (ofRules .empty .empty).process "SS://YWVzOnBAYS5iOjE=#" =
      .ok "ss://YWVzOnA@a.b:1" := rfl
  have hrejected : (ofRules .empty .empty).process "trojan://a b" = .error (.badUrl "Trojan") := rfl
  exact ⟨⟨haccepted, (process_own_scheme .empty .empty _).2 _ haccepted⟩, hrejected,
    ((process_own_scheme .empty .empty _).1 _ hrejected).2⟩

end Dispatcher

end LinkSieve.Link
