import LinkSieve.Proofs.Link.RoundTrip

/-!
# User names of VLESS and Trojan links

Both formats take their credential from the user name of a URL, and the canonical text has the same
user name. A password after it is not passed on. So links that differ in nothing but a password have
one canonical text, and no other difference between credentials is lost.
-/

namespace LinkSieve.Link

namespace Protocol

variable {p : Protocol} {line : String} {draft : Draft}

/-- A format whose credential is a user name alone. -/
def IsNamed (p : Protocol) : Prop :=
  p = .vless ∨ p = .trojan

/-- The canonical text of a draft has the user name of its line and no password. -/
theorem username_of_draft (hp : p.IsNamed) (h : p.draft line = .ok draft) :
    ∃ u v, Url.read line = .ok u ∧ Url.read draft.canonical = .ok v ∧
      v.username = u.username ∧ v.password = none := by
  rcases hp with rfl | rfl
  · obtain ⟨-, u, link, hread, hscheme, hlink, rfl⟩ := Vless.draft_eq_ok.1 h
    exact ⟨u, Vless.readBack link u, hread, Vless.read_text hread hscheme hlink, rfl, rfl⟩
  · obtain ⟨-, u, link, hread, hscheme, hlink, rfl⟩ := Trojan.draft_eq_ok.1 h
    exact ⟨u, Trojan.readBack link u, hread, Trojan.read_text hread hscheme hlink, rfl, rfl⟩

end Protocol

namespace Dispatcher

variable {p q : Protocol} {line other text : String}

theorem username_of_process {rules : Policy.RuleSet} {words : Policy.WordList} (hp : p.IsNamed)
    (hclaims : p.claims line = true) (hprocess : (ofRules rules words).process line = .ok text) :
    ∃ u v, Url.read line = .ok u ∧ Url.read text = .ok v ∧
      v.username = u.username ∧ v.password = none := by
  obtain ⟨draft, hdraft, rfl⟩ := exists_draft_of_process hclaims hprocess
  exact Protocol.username_of_draft hp hdraft

/-- An accepted VLESS or Trojan line keeps its user name and loses its password, and lines with the
same canonical text have the same user name. -/
theorem username_of_process_eq (rules : Policy.RuleSet) (words : Policy.WordList)
    (hp : p.IsNamed) (hq : q.IsNamed) (hclaims : p.claims line = true)
    (hother : q.claims other = true) (hprocess : (ofRules rules words).process line = .ok text)
    (hsame : (ofRules rules words).process other = .ok text) :
    ∃ u w v, Url.read line = .ok u ∧ Url.read other = .ok w ∧ Url.read text = .ok v ∧
      v.username = u.username ∧ v.password = none ∧ w.username = u.username := by
  obtain ⟨u, v, hline, htext, huser, hnone⟩ := username_of_process hp hclaims hprocess
  obtain ⟨w, v', hread, htext', huser', -⟩ := username_of_process hq hother hsame
  obtain rfl : v = v' := Except.ok.inj (htext.symm.trans htext')
  exact ⟨u, w, v, hline, hread, htext, huser, hnone, huser'.symm.trans huser⟩

theorem username_of_process_eq_escaped :
    ∃ u w v, Url.read "trojan://é:p@a.b:1" = .ok u ∧ Url.read "trojan://%C3%A9@a.b:1/" = .ok w ∧
      Url.read "trojan://%C3%A9@a.b:1" = .ok v ∧
      v.username = u.username ∧ v.password = none ∧ w.username = u.username :=
  have hclaims : Protocol.trojan.claims "trojan://é:p@a.b:1" = true := rfl
  have hother : Protocol.trojan.claims "trojan://%C3%A9@a.b:1/" = true := rfl
  have hprocess : (ofRules .empty .empty).process "trojan://é:p@a.b:1" =
      .ok "trojan://%C3%A9@a.b:1" := rfl
  have hsame : (ofRules .empty .empty).process "trojan://%C3%A9@a.b:1/" =
      .ok "trojan://%C3%A9@a.b:1" := rfl
  username_of_process_eq .empty .empty (.inr rfl) (.inr rfl) hclaims hother hprocess hsame

/-- Links of either format with a password lose it, and with it what sets them apart from links
that have another password. -/
theorem process_forgets_password :
    ((∃ u, Url.read "trojan://u:p@a.b:1" = .ok u ∧ u.password = some "p") ∧
      (∃ v, Url.read "trojan://u@a.b:1" = .ok v ∧ v.password = none) ∧
      (ofRules .empty .empty).process "trojan://u:p@a.b:1" = .ok "trojan://u@a.b:1" ∧
      (ofRules .empty .empty).process "trojan://u:q@a.b:1" = .ok "trojan://u@a.b:1") ∧
    (∃ u, Url.read "vless://u:p@a.b:1" = .ok u ∧ u.password = some "p") ∧
      (∃ v, Url.read "vless://u@a.b:1" = .ok v ∧ v.password = none) ∧
      (ofRules .empty .empty).process "vless://u:p@a.b:1" = .ok "vless://u@a.b:1" ∧
      (ofRules .empty .empty).process "vless://u:q@a.b:1" = .ok "vless://u@a.b:1" :=
  ⟨⟨⟨_, rfl, rfl⟩, ⟨_, rfl, rfl⟩, rfl, rfl⟩, ⟨_, rfl, rfl⟩, ⟨_, rfl, rfl⟩, rfl, rfl⟩

end Dispatcher

end LinkSieve.Link
