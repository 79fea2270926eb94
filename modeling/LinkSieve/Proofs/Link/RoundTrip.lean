import LinkSieve.Proofs.Link.Hysteria2
import LinkSieve.Proofs.Link.Shadowsocks
import LinkSieve.Proofs.Link.Trojan
import LinkSieve.Proofs.Link.Vless

/-!
# Canonical links are links again

What the canonical text of an accepted link keeps of the URL that was read, and that reading the
canonical text once more changes nothing. Both rest on the same fact, proved for each format: the
canonical text is read as a URL whose canonical link has the same text.

VMess is not among these formats, since its links are no URLs.
-/

namespace LinkSieve.Link

namespace Protocol

/-- The text that a line is read as a URL from. -/
def urlText (p : Protocol) (line : String) : Except Rejection String :=
  match p with
  | .shadowsocks => Shadowsocks.expandLegacy line
  | _ => .ok line

/-- The parameters that a protocol passes on. -/
def passedOn (p : Protocol) (q : Query) : Query :=
  match p with
  | .vless => Vless.withOneAlpn (Vless.withoutToggles q)
  | _ => q

/-- The path that a protocol passes on. -/
def pathOf (p : Protocol) (url : Url) : String :=
  match p with
  | .vless => url.path
  | _ => ""

/-- What it means to a protocol that two URLs carry the same credentials. -/
def SameCredentials (p : Protocol) (u v : Url) : Prop :=
  match p with
  | .vless | .trojan => v.username = u.username
  | .hysteria2 => v.username = u.username ∧ v.password = u.password
  | .shadowsocks => ∃ pair, Shadowsocks.credentials u.username u.password = .ok pair ∧
      Shadowsocks.credentials v.username v.password = .ok pair
  | .vmess => True

/-- What the canonical text, read as `v`, keeps of the URL `u` that a line is read as. -/
structure Keeps (p : Protocol) (u v : Url) : Prop where
  scheme : v.scheme = u.scheme
  server : ∃ server, readServer p.title u = .ok server ∧ readServer p.title v = .ok server
  fragment : v.fragment = u.fragment.filter (!·.isEmpty)
  query : Query.ofUrl v = p.passedOn (Query.ofUrl u)
  path : v.path = p.pathOf u
  credentials : p.SameCredentials u v

variable {p : Protocol} {line : String} {draft : Draft} {params : Params}

/-- The canonical text of a draft is read as a URL that keeps what the protocol passes on. -/
theorem exists_keeps (hp : p ≠ .vmess) (h : p.draft line = .ok draft)
    (hparams : draft.params = .ok params) :
    ∃ text u v, p.urlText line = .ok text ∧ Url.read text = .ok u ∧
      Url.read draft.canonical = .ok v ∧ p.Keeps u v := by
  cases p with
  | vless =>
      obtain ⟨-, u, link, hread, hscheme, hlink, rfl⟩ := Vless.draft_eq_ok.1 h
      obtain ⟨-, hurl⟩ := Vless.isNormal_of_link hread hscheme hlink
      have hof := Vless.isOf_of_link hurl hscheme hlink
      refine ⟨line, u, Vless.readBack link u, rfl, hread, Vless.read_text hread hscheme hlink, ?_⟩
      obtain ⟨-, server, hserver, rfl⟩ := Vless.link_eq_ok.1 hlink
      exact ⟨rfl, ⟨server, hserver, hserver⟩, rfl, hof.ofUrl_urlFrom _ _, rfl, rfl⟩
  | vmess => exact absurd rfl hp
  | trojan =>
      obtain ⟨-, u, link, hread, hscheme, hlink, rfl⟩ := Trojan.draft_eq_ok.1 h
      have hof := Trojan.isOf_of_link hscheme hlink
      refine ⟨line, u, Trojan.readBack link u, rfl, hread, Trojan.read_text hread hscheme hlink, ?_⟩
      obtain ⟨-, server, hserver, rfl⟩ := Trojan.link_eq_ok.1 hlink
      exact ⟨rfl, ⟨server, hserver, hserver⟩, rfl, hof.ofUrl_urlFrom _ _, rfl, rfl⟩
  | shadowsocks =>
      obtain ⟨-, text, u, link, cipher, hexpand, hread, hscheme, hlink, rfl⟩ :=
        Shadowsocks.draft_eq_ok.1 h
      have hcipher := (Shadowsocks.isCipher_of_policyParams hparams).1
      have hof := Shadowsocks.isOf_of_link hscheme hlink
      have hsame := Shadowsocks.credentials_readBack hcipher hlink
      refine ⟨text, u, Shadowsocks.readBack link u, hexpand, hread,
        Shadowsocks.read_text hread hscheme hlink, ?_⟩
      obtain ⟨-, password, hpair, -, server, hserver, rfl⟩ := Shadowsocks.link_eq_ok.1 hlink
      exact ⟨rfl, ⟨server, hserver, hserver⟩, rfl, hof.ofUrl_urlFrom _ _, rfl,
        ⟨(cipher, password), hpair, hsame.trans hpair⟩⟩
  | hysteria2 =>
      obtain ⟨-, u, link, hread, hscheme, hlink, rfl⟩ := Hysteria2.draft_eq_ok.1 h
      have hof := Hysteria2.isOf_of_link hlink
      refine ⟨line, u, Hysteria2.readBack link u, rfl, hread,
        Hysteria2.read_text hread hscheme hlink, ?_⟩
      obtain ⟨-, server, hserver, rfl⟩ := Hysteria2.link_eq_ok.1 hlink
      exact ⟨rfl, ⟨server, hserver, hserver⟩, rfl, hof.ofUrl_urlFrom _ _, rfl, ⟨rfl, rfl⟩⟩

/-- The canonical text of a draft has the same draft. -/
theorem draft_canonical (hp : p ≠ .vmess) (h : p.draft line = .ok draft)
    (hparams : draft.params = .ok params)
    (hlength : draft.canonical.utf8ByteSize ≤ maxLineLength) :
    p.draft draft.canonical = .ok draft := by
  cases p with
  | vless => exact Vless.draft_canonical h hlength
  | vmess => exact absurd rfl hp
  | trojan => exact Trojan.draft_canonical h hlength
  | shadowsocks => exact Shadowsocks.draft_canonical h hparams hlength
  | hysteria2 => exact Hysteria2.draft_canonical h hlength

theorem claims_text {link : ShareLink} {s : String} (h : s ∈ p.schemes)
    (hscheme : link.scheme = s) : p.claims link.text = true := by
  subst hscheme
  exact List.any_eq_true.2 ⟨link.scheme, h, hasScheme_iff.2 ⟨_, link.afterScheme?_text⟩⟩

/-- A protocol makes a link of a line. Neither the length of the line matters for this, nor the
checks that a protocol makes on parameters, nor those of a screen. -/
inductive Makes : Protocol → String → ShareLink → Prop where
  | vless {line : String} {url : Url} {link : ShareLink} (hread : Url.read line = .ok url)
      (hscheme : url.scheme = "vless") (hlink : Vless.link url = .ok link) : Makes .vless line link
  | trojan {line : String} {url : Url} {link : ShareLink} (hread : Url.read line = .ok url)
      (hscheme : url.scheme = "trojan") (hlink : Trojan.link url = .ok link) :
      Makes .trojan line link
  | shadowsocks {line text : String} {url : Url} {link : ShareLink} {cipher : List Char}
      (hexpand : Shadowsocks.expandLegacy line = .ok text) (hread : Url.read text = .ok url)
      (hscheme : url.scheme = "ss") (hlink : Shadowsocks.link url = .ok (link, cipher)) :
      Makes .shadowsocks line link
  | hysteria2 {line : String} {url : Url} {link : ShareLink} (hread : Url.read line = .ok url)
      (hscheme : Hysteria2.IsScheme url.scheme) (hlink : Hysteria2.link url = .ok link) :
      Makes .hysteria2 line link

/-- The canonical text of a draft is the text of a link. -/
theorem exists_makes_of_draft (hp : p ≠ .vmess) (h : p.draft line = .ok draft) :
    ∃ link, p.Makes line link ∧ draft.canonical = link.text := by
  cases p with
  | vless =>
      obtain ⟨-, u, link, hread, hscheme, hlink, rfl⟩ := Vless.draft_eq_ok.1 h
      exact ⟨link, .vless hread hscheme hlink, rfl⟩
  | vmess => exact absurd rfl hp
  | trojan =>
      obtain ⟨-, u, link, hread, hscheme, hlink, rfl⟩ := Trojan.draft_eq_ok.1 h
      exact ⟨link, .trojan hread hscheme hlink, rfl⟩
  | shadowsocks =>
      obtain ⟨-, text, u, link, cipher, hexpand, hread, hscheme, hlink, rfl⟩ :=
        Shadowsocks.draft_eq_ok.1 h
      exact ⟨link, .shadowsocks hexpand hread hscheme hlink, rfl⟩
  | hysteria2 =>
      obtain ⟨-, u, link, hread, hscheme, hlink, rfl⟩ := Hysteria2.draft_eq_ok.1 h
      exact ⟨link, .hysteria2 hread hscheme hlink, rfl⟩

section Makes

variable {link : ShareLink}

theorem Makes.mem_schemes (h : p.Makes line link) : link.scheme ∈ p.schemes := by
  cases h with
  | vless hread hscheme hlink =>
      obtain ⟨-, server, -, rfl⟩ := Vless.link_eq_ok.1 hlink
      exact List.mem_singleton.2 rfl
  | trojan hread hscheme hlink =>
      obtain ⟨-, server, -, rfl⟩ := Trojan.link_eq_ok.1 hlink
      exact List.mem_singleton.2 rfl
  | shadowsocks hexpand hread hscheme hlink =>
      obtain ⟨-, password, -, -, server, -, rfl⟩ := Shadowsocks.link_eq_ok.1 hlink
      exact List.mem_singleton.2 rfl
  | hysteria2 hread hscheme hlink =>
      obtain ⟨-, server, -, rfl⟩ := Hysteria2.link_eq_ok.1 hlink
      exact List.mem_pair.2 hscheme

/-- The text of a link that is made of a line spells a URL. -/
theorem Makes.exists_spells (h : p.Makes line link) : ∃ url, link.Spells url := by
  cases h with
  | vless hread hscheme hlink => exact ⟨_, Vless.spells_readBack hread hscheme hlink⟩
  | trojan hread hscheme hlink => exact ⟨_, Trojan.spells_readBack hread hscheme hlink⟩
  | shadowsocks hexpand hread hscheme hlink =>
      exact ⟨_, Shadowsocks.spells_readBack hread hscheme hlink⟩
  | hysteria2 hread hscheme hlink => exact ⟨_, Hysteria2.spells_readBack hread hscheme hlink⟩

end Makes

/-- A protocol claims the canonical text of its drafts. -/
theorem claims_canonical (hp : p ≠ .vmess) (h : p.draft line = .ok draft) :
    p.claims draft.canonical = true := by
  obtain ⟨link, hmakes, htext⟩ := exists_makes_of_draft hp h
  rw [htext]
  exact claims_text hmakes.mem_schemes rfl

end Protocol

namespace Dispatcher

variable {p : Protocol} {line text : String}

theorem exists_params_of_process {rules : Policy.RuleSet} {words : Policy.WordList}
    (h : p.claims line = true) (hprocess : (ofRules rules words).process line = .ok text) :
    ∃ draft params, p.draft line = .ok draft ∧ draft.params = .ok params ∧
      draft.canonical = text := by
  obtain ⟨-, draft, hdraft, hjudge⟩ := (process_eq_ok h).1 hprocess
  obtain ⟨-, ⟨params, hparams, -⟩, htext⟩ := Screen.judge_eq_ok.1 hjudge
  exact ⟨draft, params, hdraft, hparams, htext⟩

/-- The canonical text of an accepted link is accepted and is its own canonical text, unless it is
too long to be a line. -/
theorem process_canonical (rules : Policy.RuleSet) (words : Policy.WordList) (hp : p ≠ .vmess)
    (hclaims : p.claims line = true) (hprocess : (ofRules rules words).process line = .ok text)
    (hlength : text.utf8ByteSize ≤ maxLineLength) :
    (ofRules rules words).process text = .ok text := by
  obtain ⟨draft, params, hdraft, hparams, rfl⟩ := exists_params_of_process hclaims hprocess
  exact process_of_draft_eq hclaims hprocess hdraft
    (Protocol.draft_canonical hp hdraft hparams hlength)
    (Protocol.claims_canonical hp hdraft) hlength

theorem process_canonical_vless :
    (ofRules .empty .empty).process "vless://u@a.b:1?b=1&alpn=h2,h3&a#" =
        .ok "vless://u@a.b:1?a=&alpn=h2&b=1" ∧
      (ofRules .empty .empty).process "vless://u@a.b:1?a=&alpn=h2&b=1" =
        .ok "vless://u@a.b:1?a=&alpn=h2&b=1" :=
  have hprocess : (ofRules .empty .empty).process "vless://u@a.b:1?b=1&alpn=h2,h3&a#" =
      .ok "vless://u@a.b:1?a=&alpn=h2&b=1" := rfl
  ⟨hprocess, process_canonical .empty .empty (p := .vless) (by decide) rfl hprocess (by decide)⟩

/-- The canonical text of an accepted link is a URL, and it keeps the scheme, the server, the
fragment, the parameters, the path and the credentials of the URL that the line was read as, as
far as the protocol passes them on. -/
theorem keeps_of_process (rules : Policy.RuleSet) (words : Policy.WordList) (hp : p ≠ .vmess)
    (hclaims : p.claims line = true)
    (hprocess : (ofRules rules words).process line = .ok text) :
    ∃ expanded u v, p.urlText line = .ok expanded ∧ Url.read expanded = .ok u ∧
      Url.read text = .ok v ∧ p.Keeps u v := by
  obtain ⟨draft, params, hdraft, hparams, rfl⟩ := exists_params_of_process hclaims hprocess
  exact Protocol.exists_keeps hp hdraft hparams

theorem keeps_of_process_legacy :
    ∃ expanded u v, Protocol.shadowsocks.urlText "ss://YWVzOnBAYS5iOjE=#" = .ok expanded ∧
      Url.read expanded = .ok u ∧ Url.read "ss://YWVzOnA@a.b:1" = .ok v ∧
        Protocol.shadowsocks.Keeps u v :=
  have hclaims : Protocol.shadowsocks.claims "ss://YWVzOnBAYS5iOjE=#" = true := rfl
  have hprocess : (ofRules .empty .empty).process "ss://YWVzOnBAYS5iOjE=#" =
      .ok "ss://YWVzOnA@a.b:1" := rfl
  keeps_of_process .empty .empty (by decide) hclaims hprocess

end Dispatcher

end LinkSieve.Link
