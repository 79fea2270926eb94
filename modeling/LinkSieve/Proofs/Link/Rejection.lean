import LinkSieve.Proofs.Link.Dispatcher
import LinkSieve.Proofs.Policy.Wording

/-!
# What rejections say

A format rejects a line on its own account under its own title, and never mentions rules or banned
words; a screen adds the mention of a banned word or what a rule raises. A line comes to a format
only if it starts with one of its schemes, and then no format finds fault with the scheme: the line
that it reads as a URL, be it the one given or an expanded one, has that scheme again. Titles are
plain and what a line holds is shown in quotes only, so the reason for a rejection is on one line
whatever the line, as long as the names and conditions of the rules are.
-/

namespace LinkSieve.Link

open Outcome (Meets)
open Policy (Rule RuleSet WordList)
open Text (IsOneLine isOneLine_append isOneLine_ofList isOneLine_quoted)

/-- The rejections with which a format of a given title can refuse, on its own account, a line that
starts with one of its schemes. -/
def Rejection.IsFor (title : String) : Rejection → Prop
  | .bannedWord _ | .violation _ _ | .wrongScheme _ | .wrongHysteriaScheme | .notVmess => False
  | .badUrl t | .missingHost t | .missingPort t | .portOutOfRange t | .badHost t => t = title
  | _ => True

/-- A step of reading a link, which fails under a title if it does. -/
def ReadsAs {α : Type} (title : String) (x : Except Rejection α) : Prop :=
  Meets (Rejection.IsFor title) (fun _ => True) x

/-- A line is read under a title, and so are the parameters of its draft. -/
def DraftsAs (title : String) (x : Except Rejection Draft) : Prop :=
  Meets (Rejection.IsFor title) (fun draft => ReadsAs title draft.params) x

section Steps

variable {title line scheme : String} {url : Url} {α : Type} {x : Except Rejection α}

theorem readsAs_checkLength : ReadsAs title (checkLength line) := by
  rw [checkLength]
  split <;> trivial

/-- A line that starts with a scheme is read as a URL under that scheme, or not at all. -/
theorem meets_readUrl (hscheme : Url.IsOpaqueScheme scheme) (h : hasScheme line scheme = true) :
    Meets (Rejection.IsFor title) (fun url => url.scheme = scheme) (readUrl title line) := by
  rw [readUrl]
  split
  · rename_i hread
    exact scheme_of_hasScheme hscheme h hread
  · split <;> rfl

theorem readsAs_readUrlOf (hscheme : Url.IsOpaqueScheme scheme)
    (h : hasScheme line scheme = true) : ReadsAs title (readUrlOf scheme title line) :=
  (meets_readUrl hscheme h).bind fun _ hurl => .pass (not_not_intro hurl) trivial

theorem readsAs_readServer : ReadsAs title (readServer title url) := by
  rw [readServer]
  split
  · rfl
  · split
    · rfl
    · split
      · rfl
      · split
        · rfl
        · trivial

end Steps

section Formats

variable {line : String} {url : Url}

theorem Vless.readsAs_link : ReadsAs title (link url) := by
  rw [ReadsAs, link]
  exact .check trivial (readsAs_readServer.bind fun _ _ => trivial)

theorem Vless.draftsAs_draft (h : hasScheme line "vless" = true) :
    DraftsAs title (draft line) :=
  readsAs_checkLength.bind fun _ _ =>
    (readsAs_readUrlOf (Protocol.isOpaqueScheme (p := .vless) (by decide)) h).bind fun _ _ =>
      Vless.readsAs_link.bind fun _ _ => trivial

theorem Trojan.readsAs_link : ReadsAs title (link url) := by
  rw [ReadsAs, link]
  exact .check trivial (readsAs_readServer.bind fun _ _ => trivial)

theorem Trojan.draftsAs_draft (h : hasScheme line "trojan" = true) :
    DraftsAs title (draft line) :=
  readsAs_checkLength.bind fun _ _ =>
    (readsAs_readUrlOf (Protocol.isOpaqueScheme (p := .trojan) (by decide)) h).bind fun _ _ =>
      Trojan.readsAs_link.bind fun _ _ => trivial

theorem Hysteria2.readsAs_checkObfuscation {params : Params} :
    ReadsAs title (checkObfuscation params) := by
  rw [checkObfuscation]
  split
  · trivial
  · split
    · trivial
    · split <;> trivial

theorem Hysteria2.readsAs_link : ReadsAs title (link url) := by
  rw [ReadsAs, link]
  exact .check trivial (readsAs_readServer.bind fun _ _ => trivial)

theorem Hysteria2.draftsAs_draft {scheme : String} (hscheme : scheme ∈ Protocol.hysteria2.schemes)
    (h : hasScheme line scheme = true) : DraftsAs title (draft line) := by
  have hown : ∀ s ∈ Protocol.hysteria2.schemes,
      ¬(decide (s ≠ "hysteria2") && decide (s ≠ "hy2")) = true := by decide
  refine readsAs_checkLength.bind fun _ _ =>
    (meets_readUrl (Protocol.isOpaqueScheme hscheme) h).bind fun url hurl => ?_
  exact .pass (hurl ▸ hown scheme hscheme)
    (Hysteria2.readsAs_link.bind fun _ _ => Hysteria2.readsAs_checkObfuscation)

theorem Shadowsocks.readsAs_expandPayload {payload : List Char} :
    ReadsAs title (expandPayload payload) := by
  rw [expandPayload]
  split
  · trivial
  · split <;> trivial

/-- A line in legacy form is expanded to one with the same scheme. -/
theorem Shadowsocks.meets_expandLegacy (h : hasScheme line "ss" = true) :
    Meets (Rejection.IsFor title) (fun text => hasScheme text "ss" = true)
      (expandLegacy line) := by
  rw [expandLegacy]
  split
  · split
    split
    split
    · exact h
    · refine Shadowsocks.readsAs_expandPayload.bind fun expanded _ => ?_
      have hstart : "ss://".toList = "ss".toList ++ "://".toList := by decide
      change hasScheme (String.ofList ("ss://".toList ++ _ ++ _ ++ _)) "ss" = true
      rw [hstart, List.append_assoc, List.append_assoc, List.append_assoc]
      exact hasScheme_ofList "ss" _
  · rename_i hnone
    obtain ⟨rest, hrest⟩ := hasScheme_iff.1 h
    exact (hnone rest hrest).elim

theorem Shadowsocks.readsAs_unescape {s : String} : ReadsAs title (unescape s) := by
  rw [unescape]
  split <;> trivial

theorem Shadowsocks.readsAs_credentials {username : String} {password : Option String} :
    ReadsAs title (credentials username password) := by
  unfold credentials
  split
  · exact Shadowsocks.readsAs_unescape.bind fun _ _ =>
      Shadowsocks.readsAs_unescape.bind fun _ _ => trivial
  · refine Shadowsocks.readsAs_unescape.bind fun _ _ => ?_
    split
    · split <;> trivial
    · trivial

theorem Shadowsocks.readsAs_link : ReadsAs title (link url) := by
  rw [ReadsAs, link]
  exact .check trivial (Shadowsocks.readsAs_credentials.bind fun _ _ =>
    .check trivial (readsAs_readServer.bind fun _ _ => trivial))

theorem Shadowsocks.readsAs_policyParams {q : Query} {cipher : List Char} :
    ReadsAs title (policyParams q cipher) := by
  rw [policyParams]
  split <;> trivial

theorem Shadowsocks.draftsAs_draft (h : hasScheme line "ss" = true) :
    DraftsAs title (draft line) :=
  readsAs_checkLength.bind fun _ _ => (Shadowsocks.meets_expandLegacy h).bind fun _ htext =>
    (readsAs_readUrlOf (Protocol.isOpaqueScheme (p := .shadowsocks) (by decide)) htext).bind
      fun _ _ => Shadowsocks.readsAs_link.bind fun _ _ => Shadowsocks.readsAs_policyParams

theorem Vmess.readsAs_readFields {payload : List Char} : ReadsAs title (readFields payload) := by
  rw [readFields]
  split
  · trivial
  · split <;> trivial

theorem Vmess.readsAs_portOf {n : Option Int} : ReadsAs title (portOf n) := by
  unfold portOf
  split
  · split <;> trivial
  · trivial

theorem Vmess.readsAs_readPort {value : Option Json} : ReadsAs title (readPort value) := by
  unfold readPort
  split
  · exact Vmess.readsAs_portOf
  · exact Vmess.readsAs_portOf
  · split
    · exact Vmess.readsAs_portOf
    · trivial
  · trivial

theorem Vmess.draftsAs_draft (h : hasScheme line "vmess" = true) :
    DraftsAs title (draft line) := by
  refine readsAs_checkLength.bind fun _ _ => ?_
  split
  · exact .check trivial (Vmess.readsAs_readFields.bind fun _ _ =>
      .check trivial (Vmess.readsAs_readPort.bind fun _ _ => .check trivial trivial))
  · rename_i hnone
    obtain ⟨rest, hrest⟩ := hasScheme_iff.1 h
    exact (hnone rest hrest).elim

/-- Every format rejects the lines that it claims under its own title, and not for their scheme. -/
theorem Protocol.draftsAs_draft {p : Protocol} (h : p.claims line = true) :
    DraftsAs p.title (p.draft line) := by
  obtain ⟨scheme, hmem, hscheme⟩ := List.any_eq_true.1 h
  cases p with
  | vless =>
      obtain rfl := List.mem_singleton.1 hmem
      exact Vless.draftsAs_draft hscheme
  | vmess =>
      obtain rfl := List.mem_singleton.1 hmem
      exact Vmess.draftsAs_draft hscheme
  | trojan =>
      obtain rfl := List.mem_singleton.1 hmem
      exact Trojan.draftsAs_draft hscheme
  | shadowsocks =>
      obtain rfl := List.mem_singleton.1 hmem
      exact Shadowsocks.draftsAs_draft hscheme
  | hysteria2 => exact Hysteria2.draftsAs_draft hmem hscheme

end Formats

/-- The rejections of lines under given rules: those by the length of the line or by a scheme that
no format knows, those by a format on its own account, and those by a banned word or by the rule of
a format. -/
inductive Rejection.Arises (rules : RuleSet) : Rejection → Prop where
  | tooLong : Arises rules .lineTooLong
  | unsupported : Arises rules .unsupported
  | format {p : Protocol} {r : Rejection} : r.IsFor p.title → Arises rules r
  | word (word : String) : Arises rules (.bannedWord word)
  | rule {p : Protocol} {rule : Rule} {v : Policy.Violation} :
      rules.get? p.scheme = some rule → rule.Raises v → Arises rules (.violation p.title v)

section Screens

variable {rules : RuleSet} {words : WordList} {p : Protocol} {draft : Draft}

/-- A screen rejects for a banned word, for what the format objects to, or for what the rule does.
-/
theorem Screen.meets_judge {P : Rejection → Prop} {screen : Screen} {title : String}
    (hword : ∀ word, P (.bannedWord word))
    (hrule : ∀ params v, screen.rule.bind (·.violation? params) = some v → P (.violation title v))
    (hparams : Meets P (fun _ => True) draft.params) :
    Meets P (fun _ => True) (screen.judge title draft) := by
  have hlabel : Meets P (fun _ => True) (screen.checkLabel draft.label) := by
    rw [checkLabel]
    split
    · exact hword _
    · trivial
  have henforce (params : Table String) : Meets P (fun _ => True)
      (screen.enforce title params) := by
    rw [enforce]
    split
    · rename_i v hv
      exact hrule params v hv
    · trivial
  exact hlabel.bind fun _ _ => hparams.bind fun params _ =>
    (henforce params).bind fun _ _ => trivial

theorem Screen.arises_of_judge (h : ReadsAs p.title draft.params) :
    Meets (Rejection.Arises rules) (fun _ => True)
      ((forProtocol rules p.scheme words).judge p.title draft) := by
  apply Screen.meets_judge .word _ (h.mono fun _ => .format)
  intro params v hv
  obtain ⟨rule, hrule, hraised⟩ := Option.bind_eq_some_iff.1 hv
  exact .rule (Option.filter_eq_some_iff.1 hrule).1 (Policy.Rule.raises_of_violation? hraised)

/-- Whatever a line is, the reason to reject it is one of these. -/
theorem Dispatcher.meets_process (rules : RuleSet) (words : WordList) (line : String) :
    Meets (Rejection.Arises rules) (fun _ => True) ((ofRules rules words).process line) := by
  have hlength : Meets (Rejection.Arises rules) (fun _ => True) (checkLength line) := by
    rw [checkLength]
    split
    · exact .tooLong
    · trivial
  rw [Dispatcher.process_eq]
  refine hlength.bind fun _ _ => ?_
  split
  · rename_i c hfind
    have hclaims : c.protocol.claims line = true :=
      List.find?_some (p := fun c : Canonicalizer => c.protocol.claims line) hfind
    obtain ⟨p, -, rfl⟩ := List.mem_map.1 (List.mem_of_find?_eq_some hfind)
    have hdraft : Meets (Rejection.Arises rules) (fun draft => ReadsAs p.title draft.params)
        (p.draft line) := (Protocol.draftsAs_draft hclaims).mono fun _ => .format
    exact hdraft.bind fun _ hparams => Screen.arises_of_judge hparams
  · exact .unsupported

end Screens

namespace Rejection

variable {title : String} {r : Rejection}

theorem reason_ne_empty (r : Rejection) : r.reason ≠ "" := by
  unfold reason
  cases r <;> simp

theorem IsFor.isOneLine_reason (h : r.IsFor title) (htitle : IsOneLine title) :
    IsOneLine r.reason := by
  unfold reason
  cases r with
  | bannedWord | violation | wrongScheme | wrongHysteriaScheme | notVmess => exact h.elim
  | missingHost | missingPort | portOutOfRange | badHost =>
      obtain rfl := h
      exact isOneLine_append.2 ⟨htitle, isOneLine_ofList (by decide)⟩
  | badUrl =>
      obtain rfl := h
      simp only [isOneLine_append]
      exact ⟨⟨isOneLine_ofList (by decide), htitle⟩, isOneLine_ofList (by decide)⟩
  | unknownObfuscation method =>
      simp only [isOneLine_append]
      exact ⟨⟨isOneLine_ofList (by decide), isOneLine_quoted method⟩, isOneLine_ofList (by decide)⟩
  | _ => exact isOneLine_ofList (by decide)

/-- The reason for a rejection is on one line. -/
theorem Arises.isOneLine_reason {rules : RuleSet} (hrules : rules.IsPlain) (h : r.Arises rules) :
    IsOneLine r.reason := by
  have htitle (p : Protocol) : IsOneLine p.title := by
    cases p <;> exact isOneLine_ofList (by decide)
  cases h with
  | tooLong => exact isOneLine_ofList (by decide)
  | unsupported => exact isOneLine_ofList (by decide)
  | format hr => exact hr.isOneLine_reason (htitle _)
  | word word => exact isOneLine_append.2 ⟨isOneLine_ofList (by decide), isOneLine_quoted word⟩
  | rule hrule hv =>
      have hmessage := (hrules.rule hrule).isOneLine_message hv
      have hcolon : IsOneLine ": " := isOneLine_ofList (by decide)
      exact isOneLine_append.2 ⟨isOneLine_append.2 ⟨htitle _, hcolon⟩, hmessage⟩

end Rejection

end LinkSieve.Link
