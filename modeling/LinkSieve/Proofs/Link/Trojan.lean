import LinkSieve.Proofs.Link.Dispatcher

/-!
# Trojan links, read back
-/

namespace LinkSieve.Link.Trojan

variable {url : Url} {link : ShareLink}

theorem link_eq_ok : Trojan.link url = .ok link ↔
    url.username.isEmpty = false ∧ ∃ server, readServer title url = .ok server ∧
      link = {
        scheme := "trojan"
        userinfo := url.username
        server
        path := ""
        query := Query.ofUrl url
        fragment := url.fragment } := by
  rw [Trojan.link, Outcome.check_eq_ok, Outcome.bind_eq_ok, Bool.not_eq_true]
  simp only [Outcome.pure_eq_ok]

theorem isOf_of_link (hscheme : url.scheme = "trojan") (h : Trojan.link url = .ok link) :
    link.IsOf url := by
  obtain ⟨-, server, hserver, rfl⟩ := link_eq_ok.1 h
  obtain ⟨hhost, hport, -, -⟩ := readServer_eq_ok.1 hserver
  exact ⟨hscheme.symm, hhost, hport, Url.Path.isNormal_nil, Query.isFull_ofPairs _, rfl⟩

/-- The URL as which the text of a link is read. -/
def readBack (link : ShareLink) (url : Url) : Url :=
  link.urlFrom url url.username none

theorem link_readBack (hscheme : url.scheme = "trojan") (h : Trojan.link url = .ok link) :
    Trojan.link (readBack link url) = .ok link.tidy := by
  have hquery := (isOf_of_link hscheme h).ofUrl_urlFrom url.username none
  obtain ⟨huser, server, hserver, rfl⟩ := link_eq_ok.1 h
  refine link_eq_ok.2 ⟨huser, server, hserver, ?_⟩
  rw [readBack, hquery]
  rfl

theorem isNormal_of_link {line : String} (hread : Url.read line = .ok url)
    (hscheme : url.scheme = "trojan") (h : Trojan.link url = .ok link) :
    Url.IsOpaqueScheme url.scheme ∧ url.IsNormal := by
  obtain ⟨-, server, hserver, -⟩ := link_eq_ok.1 h
  have hother : Url.IsOpaqueScheme url.scheme :=
    hscheme ▸ Protocol.isOpaqueScheme (p := .trojan) (by decide)
  exact ⟨hother, isNormal_of_readServer hread hother hserver⟩

theorem spells_readBack {line : String} (hread : Url.read line = .ok url)
    (hscheme : url.scheme = "trojan") (h : Trojan.link url = .ok link) :
    link.Spells (readBack link url) := by
  obtain ⟨hother, hurl⟩ := isNormal_of_link hread hscheme h
  have hof := isOf_of_link hscheme h
  obtain ⟨-, server, hserver, rfl⟩ := link_eq_ok.1 h
  exact hof.spells (hof.isNormal hurl hurl.authority.username fun _ hp => nomatch hp) hother rfl

theorem read_text {line : String} (hread : Url.read line = .ok url)
    (hscheme : url.scheme = "trojan") (h : Trojan.link url = .ok link) :
    Url.read link.text = .ok (readBack link url) :=
  (spells_readBack hread hscheme h).read_text

theorem draft_eq_ok {line : String} {draft : Draft} : Trojan.draft line = .ok draft ↔
    line.utf8ByteSize ≤ maxLineLength ∧ ∃ url link, Url.read line = .ok url ∧
      url.scheme = "trojan" ∧ Trojan.link url = .ok link ∧
        draft = ⟨label url, .ok link.query.first, link.text⟩ := by
  rw [Trojan.draft, checkLength_bind_eq_ok]
  simp only [Outcome.bind_eq_ok, Outcome.pure_eq_ok, readUrlOf_eq_ok]
  constructor
  · rintro ⟨hlength, url, ⟨hread, hscheme⟩, link, hlink, hdraft⟩
    exact ⟨hlength, url, link, hread, hscheme, hlink, hdraft⟩
  · rintro ⟨hlength, url, link, hread, hscheme, hlink, hdraft⟩
    exact ⟨hlength, url, ⟨hread, hscheme⟩, link, hlink, hdraft⟩

/-- The canonical text of a link has the draft of its line. -/
theorem draft_canonical {line : String} {draft : Draft} (h : Trojan.draft line = .ok draft)
    (hlength : draft.canonical.utf8ByteSize ≤ maxLineLength) :
    Trojan.draft draft.canonical = .ok draft := by
  obtain ⟨-, url, link, hread, hscheme, hlink, rfl⟩ := draft_eq_ok.1 h
  have hof := isOf_of_link hscheme hlink
  refine draft_eq_ok.2 ⟨hlength, readBack link url, link.tidy, read_text hread hscheme hlink,
    hscheme, link_readBack hscheme hlink, ?_⟩
  rw [readBack, label_urlFrom hof, ShareLink.text_tidy]
  rfl

end LinkSieve.Link.Trojan
