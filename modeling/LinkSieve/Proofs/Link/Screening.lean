import LinkSieve.Proofs.Link.Filtering
import LinkSieve.Proofs.Link.RoundTrip
import LinkSieve.Proofs.Policy.Rule

/-!
# What a screen has seen of a canonical link

A rule sees one value of each parameter, and the canonical text carries them all. For every name in
the query of a canonical link it is the first value that the rule has permitted. A Shadowsocks rule
takes the cipher for the method, whatever the query says about a method.

Later values of a repeated name are passed on unseen.
-/

namespace LinkSieve

namespace Query

/-- Of each name in the query of a URL, the first value counts. -/
theorem get?_first_ofUrl (url : Url) (name : String) :
    (Query.ofUrl url).first.get? name = url.queryPairs.lookup name :=
  get?_first_ofPairs url.queryPairs name

end Query

namespace Link

/-- The first value of a name in the URL that a link is read as is the first one in the link. -/
theorem ShareLink.IsOf.get?_first {link : ShareLink} {url : Url} (hlink : link.IsOf url)
    {username name value : String} {password : Option String}
    (h : (link.urlFrom url username password).queryPairs.lookup name = some value) :
    link.query.first.get? name = some value := by
  rw [← hlink.ofUrl_urlFrom username password, Query.get?_first_ofUrl]
  exact h

namespace Screen

variable {rules : Policy.RuleSet} {words : Policy.WordList} {title : String}
  {params : Table String} {rule : Policy.Rule}

theorem enforce_eq_ok {screen : Screen} : screen.enforce title params = .ok () ↔
    screen.rule.bind (·.violation? params) = none := by
  rw [enforce]
  cases screen.rule.bind (·.violation? params) with
  | none => simp
  | some v => simp

/-- A screen objects to what the rule of its protocol objects to. -/
theorem violation?_forProtocol {protocol : String} (hrule : rules.get? protocol = some rule)
    (words : Policy.WordList) (params : Table String) :
    (forProtocol rules protocol words).rule.bind (·.violation? params) =
      rule.violation? params := by
  rw [forProtocol, hrule]
  cases hempty : rule.isEmpty with
  | false => simp [Option.filter_some, hempty]
  | true =>
      have hnone : rule.violation? params = none :=
        Policy.Rule.violation?_eq_none_iff.2 (Policy.Rule.isMet_of_isEmpty hempty)
      simp [Option.filter_some, hempty, hnone]

/-- Parameters that pass have values that the rule of the protocol permits. -/
theorem permits_of_enforce {protocol name value : String}
    (h : (forProtocol rules protocol words).enforce title params = .ok ())
    (hrule : rules.get? protocol = some rule) (hget : params.get? name = some value) :
    rule.Permits name value := by
  rw [enforce_eq_ok, violation?_forProtocol hrule] at h
  exact Policy.Rule.permits_of_violation?_eq_none h hget

end Screen

namespace Protocol

variable {p : Protocol} {line : String} {draft : Draft} {params : Params}

/-- What a rule sees of a URL that a canonical text is read as: the first value of each name of its
query, and the cipher for the method if the credentials hold one. -/
structure Shows (p : Protocol) (url : Url) (params : Params) : Prop where
  first : ∀ name value, url.queryPairs.lookup name = some value →
    (p = .shadowsocks → name ≠ "method") → params.get? name = some value
  method : p = .shadowsocks → ∃ cipher password,
    Shadowsocks.credentials url.username url.password = .ok (cipher, password) ∧
      params.get? "method" = some (String.ofList cipher)

/-- A rule sees of a draft what its canonical text shows. -/
theorem exists_shows (hp : p ≠ .vmess) (h : p.draft line = .ok draft)
    (hparams : draft.params = .ok params) :
    ∃ v, Url.read draft.canonical = .ok v ∧ p.Shows v params := by
  cases p with
  | vless =>
      obtain ⟨-, u, link, hread, hscheme, hlink, rfl⟩ := Vless.draft_eq_ok.1 h
      obtain ⟨-, hurl⟩ := Vless.isNormal_of_link hread hscheme hlink
      have hof := Vless.isOf_of_link hurl hscheme hlink
      obtain rfl := Except.ok.inj hparams
      refine ⟨Vless.readBack link u, Vless.read_text hread hscheme hlink, ?_, fun h => nomatch h⟩
      intro name value hlookup _
      have hfirst := hof.get?_first hlookup
      rw [Vless.policyParams, Table.get?_insertIfNew]
      split
      · rename_i hname
        rw [← hname, hfirst]
        rfl
      · exact hfirst
  | vmess => exact absurd rfl hp
  | trojan =>
      obtain ⟨-, u, link, hread, hscheme, hlink, rfl⟩ := Trojan.draft_eq_ok.1 h
      have hof := Trojan.isOf_of_link hscheme hlink
      obtain rfl := Except.ok.inj hparams
      refine ⟨Trojan.readBack link u, Trojan.read_text hread hscheme hlink, ?_, fun h => nomatch h⟩
      intro name value hlookup _
      exact hof.get?_first hlookup
  | shadowsocks =>
      obtain ⟨-, text, u, link, cipher, -, hread, hscheme, hlink, rfl⟩ :=
        Shadowsocks.draft_eq_ok.1 h
      obtain ⟨hcipher, rfl⟩ := Shadowsocks.isCipher_of_policyParams hparams
      have hof := Shadowsocks.isOf_of_link hscheme hlink
      have hsame := Shadowsocks.credentials_readBack hcipher hlink
      refine ⟨Shadowsocks.readBack link u, Shadowsocks.read_text hread hscheme hlink, ?_, ?_⟩
      · intro name value hlookup hmethod
        rw [Table.get?_insert, if_neg (hmethod rfl)]
        exact hof.get?_first hlookup
      · intro _
        obtain ⟨-, password, hpair, -⟩ := Shadowsocks.link_eq_ok.1 hlink
        refine ⟨cipher, password, hsame.trans hpair, ?_⟩
        rw [Table.get?_insert, if_pos rfl]
  | hysteria2 =>
      obtain ⟨-, u, link, hread, hscheme, hlink, rfl⟩ := Hysteria2.draft_eq_ok.1 h
      have hof := Hysteria2.isOf_of_link hlink
      have hsame := Hysteria2.checkObfuscation_eq_ok hparams
      refine ⟨Hysteria2.readBack link u, Hysteria2.read_text hread hscheme hlink, ?_,
        fun h => nomatch h⟩
      intro name value hlookup _
      rw [hsame]
      exact hof.get?_first hlookup

end Protocol

namespace Dispatcher

variable {p : Protocol} {line text : String}

/-- A line that is accepted without rules is accepted under a rule that has no objection to its
parameters, and is otherwise rejected with the objection. -/
theorem process_of_process_empty {rules : Policy.RuleSet} {words : Policy.WordList}
    {rule : Policy.Rule} (hclaims : p.claims line = true) (hget : rules.get? p.scheme = some rule)
    (hprocess : (ofRules .empty words).process line = .ok text) :
    ∃ draft params, p.draft line = .ok draft ∧ draft.params = .ok params ∧
      ((rule.violation? params = none ∧ (ofRules rules words).process line = .ok text) ∨
        ∃ v, rule.violation? params = some v ∧
          (ofRules rules words).process line = .error (.violation p.title v)) := by
  obtain ⟨hlength, draft, hdraft, hjudge⟩ := (process_eq_ok hclaims).1 hprocess
  obtain ⟨hlabel, ⟨params, hparams, -⟩, htext⟩ := Screen.judge_eq_ok.1 hjudge
  have hsame : (Screen.forProtocol rules p.scheme words).checkLabel draft.label = .ok () := hlabel
  have hverdict := Screen.violation?_forProtocol hget words params
  refine ⟨draft, params, hdraft, hparams, ?_⟩
  cases hv : rule.violation? params with
  | none =>
      have hpasses : (Screen.forProtocol rules p.scheme words).enforce p.title params = .ok () :=
        Screen.enforce_eq_ok.2 (hverdict.trans hv)
      left
      refine ⟨rfl, (process_eq_ok hclaims).2 ⟨hlength, draft, hdraft, ?_⟩⟩
      exact Screen.judge_eq_ok.2 ⟨hsame, ⟨params, hparams, hpasses⟩, htext⟩
  | some v =>
      right
      refine ⟨v, rfl, ?_⟩
      rw [process_of_draft hclaims hlength hdraft, Outcome.ok_bind, Screen.judge_eq, hsame,
        Outcome.ok_bind, hparams, Outcome.ok_bind, Screen.enforce, hverdict, hv]
      rfl

/-- For every name in the query of an accepted canonical link, the first value is one that the rule
of the protocol permits; for Shadowsocks, the cipher is permitted as the method instead. -/
theorem permits_of_process (rules : Policy.RuleSet) (words : Policy.WordList) (hp : p ≠ .vmess)
    (hclaims : p.claims line = true)
    (hprocess : (ofRules rules words).process line = .ok text) :
    ∃ v, Url.read text = .ok v ∧ ∀ rule, rules.get? p.scheme = some rule →
      (∀ name value, v.queryPairs.lookup name = some value →
        (p = .shadowsocks → name ≠ "method") → rule.Permits name value) ∧
      (p = .shadowsocks → ∃ cipher password,
        Shadowsocks.credentials v.username v.password = .ok (cipher, password) ∧
          rule.Permits "method" (String.ofList cipher)) := by
  obtain ⟨-, draft, hdraft, hjudge⟩ := (process_eq_ok hclaims).1 hprocess
  obtain ⟨-, ⟨params, hparams, hrule⟩, rfl⟩ := Screen.judge_eq_ok.1 hjudge
  obtain ⟨v, hread, hshows⟩ := Protocol.exists_shows hp hdraft hparams
  refine ⟨v, hread, fun rule hget => ⟨?_, ?_⟩⟩
  · intro name value hlookup hmethod
    exact Screen.permits_of_enforce hrule hget (hshows.first name value hlookup hmethod)
  · intro hss
    obtain ⟨cipher, password, hcredentials, hvalue⟩ := hshows.method hss
    exact ⟨cipher, password, hcredentials, Screen.permits_of_enforce hrule hget hvalue⟩

/-- Rules that allow one value of one parameter of one protocol. -/
def allowOnly (protocol name value : String) : Policy.RuleSet :=
  .ofList [(protocol, { allowed := .ofList [(name, [value])] })]

theorem permits_of_process_repeated :
    ∃ v, Url.read "trojan://pw@a.b:1?security=tls&security=none" = .ok v ∧
      ∀ rule, (allowOnly "trojan" "security" "tls").get? Protocol.trojan.scheme = some rule →
        (∀ name value, v.queryPairs.lookup name = some value →
          (Protocol.trojan = .shadowsocks → name ≠ "method") → rule.Permits name value) ∧
        (Protocol.trojan = .shadowsocks → ∃ cipher password,
          Shadowsocks.credentials v.username v.password = .ok (cipher, password) ∧
            rule.Permits "method" (String.ofList cipher)) :=
  have hclaims : Protocol.trojan.claims "trojan://pw@a.b:1?security=tls&security=none" = true :=
    rfl
  have hprocess : (ofRules (allowOnly "trojan" "security" "tls") .empty).process
      "trojan://pw@a.b:1?security=tls&security=none" =
        .ok "trojan://pw@a.b:1?security=tls&security=none" := rfl
  permits_of_process (allowOnly "trojan" "security" "tls") .empty (by decide) hclaims hprocess

/-- A line is accepted although its canonical link carries a value that the rule does not
permit. -/
def PassesUnpermitted (rules : Policy.RuleSet) (p : Protocol) (line : String) : Prop :=
  ∃ text v rule name value, (ofRules rules .empty).process line = .ok text ∧
    Url.read text = .ok v ∧ rules.get? p.scheme = some rule ∧ (name, value) ∈ v.queryPairs ∧
      ¬rule.Permits name value

/-- Later values of a repeated name are not checked, and for Shadowsocks no value of `method`
is. -/
theorem passesUnpermitted_repeated_and_method :
    PassesUnpermitted (allowOnly "trojan" "security" "tls") .trojan
        "trojan://pw@a.b:1?security=tls&security=none" ∧
      PassesUnpermitted (allowOnly "ss" "method" "aes-256-gcm") .shadowsocks
        "ss://aes-256-gcm:p@a.b:1?method=rc4" := by
  constructor
  · refine ⟨"trojan://pw@a.b:1?security=tls&security=none", _, _, "security", "none", rfl, rfl, rfl,
      by decide, ?_⟩
    intro hpermits
    exact absurd (hpermits.allowed ["tls"] rfl) (by decide)
  · refine ⟨"ss://YWVzLTI1Ni1nY206cA@a.b:1?method=rc4", _, _, "method", "rc4", rfl, rfl, rfl,
      by decide, ?_⟩
    intro hpermits
    exact absurd (hpermits.allowed ["aes-256-gcm"] rfl) (by decide)

end Dispatcher

end Link

end LinkSieve
