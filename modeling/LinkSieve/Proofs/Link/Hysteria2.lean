import LinkSieve.Proofs.Link.Dispatcher

/-!
# Hysteria2 links, read back

Unlike the other formats this one keeps whichever of its schemes a link has, and a password apart
from the name.
-/

namespace LinkSieve.Link.Hysteria2

variable {url : Url} {link : ShareLink}

theorem link_eq_ok : Hysteria2.link url = .ok link ↔
    (url.username.isEmpty && url.password.isNone) = false ∧
      ∃ server, readServer title url = .ok server ∧
        link = {
          scheme := url.scheme
          userinfo := userinfo url
          server
          path := ""
          query := Query.ofUrl url
          fragment := url.fragment } := by
  rw [Hysteria2.link, Outcome.check_eq_ok, Outcome.bind_eq_ok, Bool.not_eq_true]
  simp only [Outcome.pure_eq_ok]

theorem isOf_of_link (h : Hysteria2.link url = .ok link) : link.IsOf url := by
  obtain ⟨-, server, hserver, rfl⟩ := link_eq_ok.1 h
  obtain ⟨hhost, hport, -, -⟩ := readServer_eq_ok.1 hserver
  exact ⟨rfl, hhost, hport, Url.Path.isNormal_nil, Query.isFull_ofPairs _, rfl⟩

/-- The URL as which the text of a link is read. -/
def readBack (link : ShareLink) (url : Url) : Url :=
  link.urlFrom url url.username url.password

theorem link_readBack (h : Hysteria2.link url = .ok link) :
    Hysteria2.link (readBack link url) = .ok link.tidy := by
  have hquery := (isOf_of_link h).ofUrl_urlFrom url.username url.password
  obtain ⟨huser, server, hserver, rfl⟩ := link_eq_ok.1 h
  refine link_eq_ok.2 ⟨huser, server, hserver, ?_⟩
  rw [readBack, hquery]
  rfl

theorem userinfoText_eq (url : Url) : url.authority.userinfoText = (userinfo url).toList := by
  rw [Url.Authority.userinfoText, userinfo, Url.authority]
  cases url.password with
  | none => rfl
  | some password =>
      simp only [Option.map_some, String.toList_append, List.append_assoc]
      rfl

/-- The schemes of the format. -/
def IsScheme (scheme : String) : Prop :=
  scheme = "hysteria2" ∨ scheme = "hy2"

theorem IsScheme.isOpaque {scheme : String} (h : IsScheme scheme) :
    Url.IsOpaqueScheme scheme := by
  apply Protocol.isOpaqueScheme (p := .hysteria2)
  rcases h with rfl | rfl <;> decide

theorem isNormal_of_link {line : String} (hread : Url.read line = .ok url)
    (hscheme : IsScheme url.scheme) (h : Hysteria2.link url = .ok link) : url.IsNormal := by
  obtain ⟨-, server, hserver, -⟩ := link_eq_ok.1 h
  exact isNormal_of_readServer hread hscheme.isOpaque hserver

theorem spells_readBack {line : String} (hread : Url.read line = .ok url)
    (hscheme : IsScheme url.scheme) (h : Hysteria2.link url = .ok link) :
    link.Spells (readBack link url) := by
  have hof := isOf_of_link h
  have hurl := isNormal_of_link hread hscheme h
  obtain ⟨-, server, hserver, rfl⟩ := link_eq_ok.1 h
  exact hof.spells (hof.isNormal hurl hurl.authority.username hurl.authority.password)
    hscheme.isOpaque (userinfoText_eq url)

theorem read_text {line : String} (hread : Url.read line = .ok url)
    (hscheme : IsScheme url.scheme) (h : Hysteria2.link url = .ok link) :
    Url.read link.text = .ok (readBack link url) :=
  (spells_readBack hread hscheme h).read_text

theorem draft_eq_ok {line : String} {draft : Draft} : Hysteria2.draft line = .ok draft ↔
    line.utf8ByteSize ≤ maxLineLength ∧ ∃ url link, Url.read line = .ok url ∧
      IsScheme url.scheme ∧ Hysteria2.link url = .ok link ∧
        draft = ⟨label url, checkObfuscation link.query.first, link.text⟩ := by
  have hscheme (scheme : String) :
      ¬(decide (scheme ≠ "hysteria2") && decide (scheme ≠ "hy2")) = true ↔ IsScheme scheme := by
    rw [IsScheme, Bool.and_eq_true, decide_eq_true_iff, decide_eq_true_iff]
    exact Classical.not_and_iff_not_or_not.trans
      (or_congr Classical.not_not Classical.not_not)
  rw [Hysteria2.draft, checkLength_bind_eq_ok]
  simp only [Outcome.bind_eq_ok, Outcome.pure_eq_ok, readUrl_eq_ok, Outcome.check_eq_ok, hscheme]
  constructor
  · rintro ⟨hlength, url, hread, hurl, link, hlink, hdraft⟩
    exact ⟨hlength, url, link, hread, hurl, hlink, hdraft⟩
  · rintro ⟨hlength, url, link, hread, hurl, hlink, hdraft⟩
    exact ⟨hlength, url, hread, hurl, link, hlink, hdraft⟩

/-- The parameters of a link with the one obfuscation are not changed. -/
theorem checkObfuscation_eq_ok {given params : Params}
    (h : checkObfuscation given = .ok params) : params = given := by
  rw [checkObfuscation] at h
  split at h
  · cases h
  split at h
  · cases h
  split at h
  · cases h
  · exact (Except.ok.inj h).symm

/-- The canonical text of a link has the draft of its line. -/
theorem draft_canonical {line : String} {draft : Draft} (h : Hysteria2.draft line = .ok draft)
    (hlength : draft.canonical.utf8ByteSize ≤ maxLineLength) :
    Hysteria2.draft draft.canonical = .ok draft := by
  obtain ⟨-, url, link, hread, hscheme, hlink, rfl⟩ := draft_eq_ok.1 h
  have hof := isOf_of_link hlink
  refine draft_eq_ok.2 ⟨hlength, readBack link url, link.tidy, read_text hread hscheme hlink,
    hscheme, link_readBack hlink, ?_⟩
  rw [readBack, label_urlFrom hof, ShareLink.text_tidy]
  rfl

end LinkSieve.Link.Hysteria2
