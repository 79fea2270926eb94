import LinkSieve.Proofs.Link.Dispatcher

/-!
# VLESS links, read back

The parameters are rewritten before they are written. The rewriting changes nothing in parameters
that have been rewritten before: no switch is left, and the one application protocol left is what
the first of a list of one is.
-/

namespace LinkSieve.Link.Vless

section Rewriting

variable {q : Query}

theorem get?_withoutToggles (q : Query) (name : String) :
    (withoutToggles q).get? name =
      if name = "allowInsecure" ∨ name = "insecure" then none else q.get? name := by
  rw [withoutToggles, Table.get?_erase, Table.get?_erase]
  by_cases hlong : name = "allowInsecure"
  · simp [hlong]
  · simp [hlong]

theorem withoutToggles_eq_self (hlong : q.get? "allowInsecure" = none)
    (hshort : q.get? "insecure" = none) : withoutToggles q = q := by
  rw [withoutToggles, Table.erase_eq_self hshort, Table.erase_eq_self hlong]

/-- Only the list of application protocols is touched. -/
theorem get?_withOneAlpn_of_ne (q : Query) {name : String} (hname : name ≠ "alpn") :
    (withOneAlpn q).get? name = q.get? name := by
  rw [withOneAlpn]
  split
  · rfl
  split
  · rw [Table.get?_insert, if_neg hname]
  · rw [Table.get?_erase, if_neg hname]

/-- Of the lists of application protocols the first protocol of the first list is kept. -/
theorem get?_withOneAlpn_alpn (q : Query) : (withOneAlpn q).get? "alpn" =
    (((q.get? "alpn").bind (·.head?)).bind firstProtocol?).map ([·]) := by
  rw [withOneAlpn]
  cases hget : q.get? "alpn" with
  | none => rw [hget]; rfl
  | some values =>
      cases hfirst : values.head?.bind firstProtocol? with
      | none =>
          simp only [Option.bind_some, hfirst]
          rw [Table.get?_erase, if_pos rfl]
          rfl
      | some protocol =>
          simp only [Option.bind_some, hfirst]
          rw [Table.get?_insert, if_pos rfl]
          rfl

/-- The first protocol of a list is a list of which it is the first. -/
theorem firstProtocol?_firstProtocol {list protocol : String}
    (h : firstProtocol? list = some protocol) : firstProtocol? protocol = some protocol := by
  obtain ⟨cs, hfind, rfl⟩ := Option.map_eq_some_iff.1 h
  obtain ⟨piece, hpiece, rfl⟩ := List.mem_map.1 (List.mem_of_find?_eq_some hfind)
  have hcomma : ',' ∉ Text.trim piece :=
    fun hmem => (Text.mem_splitOn hpiece).1 ((Text.trimBy_sublist _ _).subset hmem)
  have hfilled : (!(Text.trim piece).isEmpty) = true :=
    List.find?_some (p := fun cs : List Char => !cs.isEmpty) hfind
  have htrim : Text.trim (Text.trim piece) = Text.trim piece := Text.trimBy_trimBy _ _
  rw [firstProtocol?, String.toList_ofList, List.splitOn_eq_singleton hcomma, List.map_singleton,
    htrim, List.find?_singleton, if_pos hfilled]
  rfl

/-- Keeping one application protocol a second time changes nothing. -/
theorem withOneAlpn_withOneAlpn (q : Query) : withOneAlpn (withOneAlpn q) = withOneAlpn q := by
  apply Table.ext_get?
  intro name
  by_cases hname : name = "alpn"
  · subst hname
    rw [get?_withOneAlpn_alpn, get?_withOneAlpn_alpn]
    cases hfirst : ((q.get? "alpn").bind (·.head?)).bind firstProtocol? with
    | none => rfl
    | some protocol =>
        obtain ⟨list, -, hlist⟩ := Option.bind_eq_some_iff.1 hfirst
        exact congrArg (Option.map ([·])) (firstProtocol?_firstProtocol hlist)
  · rw [get?_withOneAlpn_of_ne _ hname]

/-- Parameters as they are passed on. -/
def rewrite (q : Query) : Query :=
  withOneAlpn (withoutToggles q)

/-- Rewriting parameters a second time changes nothing. -/
theorem rewrite_rewrite (q : Query) : rewrite (rewrite q) = rewrite q := by
  have htoggles : withoutToggles (rewrite q) = rewrite q := by
    apply withoutToggles_eq_self
    · rw [rewrite, get?_withOneAlpn_of_ne _ (by decide), get?_withoutToggles,
        if_pos (.inl rfl)]
    · rw [rewrite, get?_withOneAlpn_of_ne _ (by decide), get?_withoutToggles,
        if_pos (.inr rfl)]
  calc
    rewrite (rewrite q) = withOneAlpn (rewrite q) := congrArg withOneAlpn htoggles
    _ = rewrite q := withOneAlpn_withOneAlpn (withoutToggles q)

theorem isFull_rewrite (h : q.IsFull) : (rewrite q).IsFull := by
  have htoggles : (withoutToggles q).IsFull := (h.erase _).erase _
  rw [rewrite, withOneAlpn]
  split
  · exact htoggles
  split
  · exact htoggles.insert _ (List.cons_ne_nil _ _)
  · exact htoggles.erase _

end Rewriting

variable {url : Url} {link : ShareLink}

theorem link_eq_ok : Vless.link url = .ok link ↔
    (url.username.isEmpty || decide (maxUuidLength < url.username.utf8ByteSize)) = false ∧
      ∃ server, readServer title url = .ok server ∧
        link = {
          scheme := "vless"
          userinfo := url.username
          server
          path := url.path
          query := rewrite (Query.ofUrl url)
          fragment := url.fragment } := by
  rw [Vless.link, Outcome.check_eq_ok, Outcome.bind_eq_ok, Bool.not_eq_true]
  simp only [Outcome.pure_eq_ok]
  rfl

theorem isOf_of_link (hurl : url.IsNormal) (hscheme : url.scheme = "vless")
    (h : Vless.link url = .ok link) : link.IsOf url := by
  obtain ⟨-, server, hserver, rfl⟩ := link_eq_ok.1 h
  obtain ⟨hhost, hport, -, -⟩ := readServer_eq_ok.1 hserver
  exact ⟨hscheme.symm, hhost, hport, hurl.path, isFull_rewrite (Query.isFull_ofPairs _), rfl⟩

/-- The URL as which the text of a link is read. -/
def readBack (link : ShareLink) (url : Url) : Url :=
  link.urlFrom url url.username none

theorem link_readBack (hurl : url.IsNormal) (hscheme : url.scheme = "vless")
    (h : Vless.link url = .ok link) : Vless.link (readBack link url) = .ok link.tidy := by
  have hquery := (isOf_of_link hurl hscheme h).ofUrl_urlFrom url.username none
  obtain ⟨huser, server, hserver, rfl⟩ := link_eq_ok.1 h
  refine link_eq_ok.2 ⟨huser, server, hserver, ?_⟩
  rw [readBack, hquery, rewrite_rewrite]
  rfl

theorem isNormal_of_link {line : String} (hread : Url.read line = .ok url)
    (hscheme : url.scheme = "vless") (h : Vless.link url = .ok link) :
    Url.IsOpaqueScheme url.scheme ∧ url.IsNormal := by
  obtain ⟨-, server, hserver, -⟩ := link_eq_ok.1 h
  have hother : Url.IsOpaqueScheme url.scheme :=
    hscheme ▸ Protocol.isOpaqueScheme (p := .vless) (by decide)
  exact ⟨hother, isNormal_of_readServer hread hother hserver⟩

theorem spells_readBack {line : String} (hread : Url.read line = .ok url)
    (hscheme : url.scheme = "vless") (h : Vless.link url = .ok link) :
    link.Spells (readBack link url) := by
  obtain ⟨hother, hurl⟩ := isNormal_of_link hread hscheme h
  have hof := isOf_of_link hurl hscheme h
  obtain ⟨-, server, hserver, rfl⟩ := link_eq_ok.1 h
  exact hof.spells (hof.isNormal hurl hurl.authority.username fun _ hp => nomatch hp) hother rfl

theorem read_text {line : String} (hread : Url.read line = .ok url)
    (hscheme : url.scheme = "vless") (h : Vless.link url = .ok link) :
    Url.read link.text = .ok (readBack link url) :=
  (spells_readBack hread hscheme h).read_text

theorem draft_eq_ok {line : String} {draft : Draft} : Vless.draft line = .ok draft ↔
    line.utf8ByteSize ≤ maxLineLength ∧ ∃ url link, Url.read line = .ok url ∧
      url.scheme = "vless" ∧ Vless.link url = .ok link ∧
        draft = ⟨label url, .ok (policyParams link.query), link.text⟩ := by
  rw [Vless.draft, checkLength_bind_eq_ok]
  simp only [Outcome.bind_eq_ok, Outcome.pure_eq_ok, readUrlOf_eq_ok]
  constructor
  · rintro ⟨hlength, url, ⟨hread, hscheme⟩, link, hlink, hdraft⟩
    exact ⟨hlength, url, link, hread, hscheme, hlink, hdraft⟩
  · rintro ⟨hlength, url, link, hread, hscheme, hlink, hdraft⟩
    exact ⟨hlength, url, ⟨hread, hscheme⟩, link, hlink, hdraft⟩

/-- The canonical text of a link has the draft of its line. -/
theorem draft_canonical {line : String} {draft : Draft} (h : Vless.draft line = .ok draft)
    (hlength : draft.canonical.utf8ByteSize ≤ maxLineLength) :
    Vless.draft draft.canonical = .ok draft := by
  obtain ⟨-, url, link, hread, hscheme, hlink, rfl⟩ := draft_eq_ok.1 h
  obtain ⟨-, hurl⟩ := isNormal_of_link hread hscheme hlink
  have hof := isOf_of_link hurl hscheme hlink
  refine draft_eq_ok.2 ⟨hlength, readBack link url, link.tidy, read_text hread hscheme hlink,
    hscheme, link_readBack hurl hscheme hlink, ?_⟩
  rw [readBack, label_urlFrom hof, ShareLink.text_tidy]
  rfl

end LinkSieve.Link.Vless
