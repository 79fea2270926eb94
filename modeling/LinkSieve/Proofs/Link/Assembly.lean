import LinkSieve.Proofs.Link.RoundTrip

/-!
# Links put together from parts

The parts of a link need not come from one line. A scheme, credentials, a server and a path that the
protocols write may be put together with any parameters and any fragment: the text is a URL again,
and the parameters are read back from it as they were.
-/

namespace LinkSieve.Link

namespace ShareLink

/-- Each part of a link ends where the next one starts. Nothing is asked of the parameters and of
the fragment. -/
structure IsLegible (link : ShareLink) : Prop where
  scheme : Url.IsOpaqueScheme link.scheme
  userinfo : ∀ c ∈ link.userinfo.toList, 0x20 < c.toNat ∧ Url.endsAuthority false c = false
  server : ∃ host, Url.IsServerText link.server.text host (some link.server.port)
  path : Url.Path.IsNormal link.path.toList

variable {link : ShareLink} {url : Url}

/-- A link is legible if it is made from a normal URL. -/
theorem IsOf.isLegible (hof : link.IsOf url) (hurl : url.IsNormal)
    (hscheme : Url.IsOpaqueScheme url.scheme)
    (huser : ∀ c ∈ link.userinfo.toList, 0x20 < c.toNat ∧ Url.endsAuthority false c = false) :
    link.IsLegible := by
  obtain ⟨cs, host, hhost, hwrites, hserver⟩ := exists_writes_server hurl.authority hof.host
  have hbefore := hwrites.isHostBeforePort (hurl.authority.host host hhost)
  refine ⟨hof.scheme ▸ hscheme, huser, ⟨host, ?_⟩, hof.path⟩
  rw [hserver]
  exact hbefore.isServerText_natText (hurl.authority.port _ hof.port)

namespace IsLegible

/-- The path and the query are found again in a tail, whatever the fragment behind them holds. -/
theorem exists_cutTail_eq (h : link.IsLegible) :
    ∃ fragment, Url.cutTail (Url.cleanEnd link.tail) =
      (link.path.toList, (queryPart link.query).map String.toList, fragment) := by
  have hgraphic : ∀ c ∈ link.path.toList ++ Url.marked '?' (queryPart link.query),
      0x20 < c.toNat := by
    intro c hc
    rcases List.mem_append.1 hc with hc | hc
    · exact (Url.isGraphic_of_inPath (h.path.escaped c hc)).1
    · rcases Url.mem_marked hc with rfl | ⟨q, hq, hc⟩
      · decide
      · exact (Url.isGraphic_of_inQuery (inQuery_of_mem_queryPart hq c hc)).1
  have hquery : ∀ cs, (queryPart link.query).map String.toList = some cs → '#' ∉ cs := by
    intro cs hcs hmem
    obtain ⟨q, hq, rfl⟩ := Option.map_eq_some_iff.1 hcs
    exact absurd (inQuery_of_mem_queryPart hq '#' hmem) (by decide)
  rw [tail, Url.cleanEnd_append hgraphic, Url.marked_eq_led, Url.marked_eq_led,
    Url.cleanEnd_led (by decide)]
  exact ⟨_, Url.cutTail_led h.path.marks_not_mem hquery _⟩

/-- A legible link is read as a URL with the query that is written in it. -/
theorem exists_read_text (h : link.IsLegible) :
    ∃ url, Url.read link.text = .ok url ∧ url.query = queryPart link.query := by
  obtain ⟨host, hserver⟩ := h.server
  obtain ⟨fragment, htail⟩ := h.exists_cutTail_eq
  have hends : ∀ c, link.tail.head? = some c → Url.endsAuthority false c = true ∧ 0x20 < c.toNat :=
    fun _ hc => Url.ends_of_head?_marked h.path hc
  have hread := Url.read_servedText h.scheme h.userinfo hserver hends
  rw [text, chars_eq]
  refine ⟨_, hread, ?_⟩
  rw [Url.servedFrom, htail]
  exact Url.map_encode_eq_self fun q hq => inQuery_of_mem_queryPart hq

end IsLegible

end ShareLink

/-- A link that a protocol makes of a line is legible. -/
theorem Protocol.Makes.isLegible {p : Protocol} {line : String} {link : ShareLink}
    (h : p.Makes line link) : link.IsLegible := by
  cases h with
  | vless hread hscheme hlink =>
      obtain ⟨hother, hurl⟩ := Vless.isNormal_of_link hread hscheme hlink
      have hof := Vless.isOf_of_link hurl hscheme hlink
      obtain ⟨-, server, -, rfl⟩ := Vless.link_eq_ok.1 hlink
      exact hof.isLegible hurl hother fun c hc =>
        Url.inner_of_inUserinfo (hurl.authority.username c hc)
  | trojan hread hscheme hlink =>
      obtain ⟨hother, hurl⟩ := Trojan.isNormal_of_link hread hscheme hlink
      have hof := Trojan.isOf_of_link hscheme hlink
      obtain ⟨-, server, -, rfl⟩ := Trojan.link_eq_ok.1 hlink
      exact hof.isLegible hurl hother fun c hc =>
        Url.inner_of_inUserinfo (hurl.authority.username c hc)
  | shadowsocks hexpand hread hscheme hlink =>
      obtain ⟨hother, hurl⟩ := Shadowsocks.isNormal_of_link hread hscheme hlink
      have hof := Shadowsocks.isOf_of_link hscheme hlink
      obtain ⟨-, password, -, -, server, -, rfl⟩ := Shadowsocks.link_eq_ok.1 hlink
      refine hof.isLegible hurl hother fun c hc => ?_
      rw [String.toList_ofList] at hc
      exact Url.inner_of_inUserinfo (Shadowsocks.inUserinfo_of_mem_encode c hc)
  | hysteria2 hread hscheme hlink =>
      have hof := Hysteria2.isOf_of_link hlink
      have hurl := Hysteria2.isNormal_of_link hread hscheme hlink
      obtain ⟨-, server, -, rfl⟩ := Hysteria2.link_eq_ok.1 hlink
      refine hof.isLegible hurl hscheme.isOpaque fun c hc => ?_
      rw [← Hysteria2.userinfoText_eq] at hc
      exact Url.Authority.mem_userinfoText hurl.authority hc

namespace ShareLink

/-- A part of some link that a protocol makes of some line. -/
def IsMade {α : Type} (part : ShareLink → α) (a : α) : Prop :=
  ∃ (p : Protocol) (line : String) (link : ShareLink), p.Makes line link ∧ part link = a

/-- A link whose scheme, credentials, server and path are each made by some protocol of some line,
and not necessarily of the same one. Its parameters and its fragment may be anything. -/
structure IsComposed (link : ShareLink) : Prop where
  scheme : IsMade ShareLink.scheme link.scheme
  userinfo : IsMade ShareLink.userinfo link.userinfo
  server : IsMade ShareLink.server link.server
  path : IsMade ShareLink.path link.path

variable {link : ShareLink}

/-- A part that is made is a part of a legible link. -/
theorem IsMade.exists_isLegible {α : Type} {part : ShareLink → α} {a : α} (h : IsMade part a) :
    ∃ made : ShareLink, made.IsLegible ∧ part made = a := by
  obtain ⟨p, line, made, hmakes, hpart⟩ := h
  exact ⟨made, hmakes.isLegible, hpart⟩

theorem IsComposed.isLegible (h : link.IsComposed) : link.IsLegible := by
  obtain ⟨schemed, hscheme, heq⟩ := h.scheme.exists_isLegible
  obtain ⟨named, huser, hname⟩ := h.userinfo.exists_isLegible
  obtain ⟨served, hserver, hplace⟩ := h.server.exists_isLegible
  obtain ⟨routed, hpath, hroute⟩ := h.path.exists_isLegible
  exact ⟨heq ▸ hscheme.scheme, hname ▸ huser.userinfo, hplace ▸ hserver.server,
    hroute ▸ hpath.path⟩

/-- The text of a link that is put together from such parts is a URL, and the parameters that are
read from it are those of the link, with the values of each name in their order, if every name has a
value. -/
theorem exists_ofUrl_eq_of_isComposed (h : link.IsComposed) (hfull : link.query.IsFull) :
    ∃ url, Url.read link.text = .ok url ∧ Query.ofUrl url = link.query := by
  obtain ⟨url, hread, hquery⟩ := h.isLegible.exists_read_text
  exact ⟨url, hread, ofUrl_eq_of_queryPart hfull hquery⟩

/-- A link with parts of four lines, names and values that hold marks, and a fragment that holds
some too. -/
def mixed : ShareLink where
  scheme := "hy2"
  userinfo := "u:p"
  server := ⟨"2001:db8::1", 443⟩
  path := "/p%20q"
  query := Query.ofPairs [("n&=", "+ %41"), ("", "é#"), ("a", ""), ("n&=", ""), ("", "")]
  fragment := some "%41 ?b#c "

theorem exists_ofUrl_eq_of_isComposed_mixed :
    mixed.IsComposed ∧ mixed.query.IsFull ∧
      mixed.text =
        "hy2://u:p@[2001:db8::1]:443/p%20q?=%C3%A9%23&=&a=&n%26%3D=%2B+%2541&n%26%3D=#%41 ?b#c " ∧
      ∃ url, Url.read mixed.text = .ok url ∧ Query.ofUrl url = mixed.query :=
  have hcomposed : mixed.IsComposed :=
    { scheme := ⟨.hysteria2, "HY2://x@a.b:1", _, .hysteria2 rfl (.inr rfl) rfl, rfl⟩
      userinfo := ⟨.hysteria2, "hysteria2://u:p@a.b:1", _, .hysteria2 rfl (.inl rfl) rfl, rfl⟩
      server := ⟨.trojan, "trojan://x@[2001:DB8:0::1]:443", _, .trojan rfl rfl rfl, rfl⟩
      path := ⟨.vless, "vless://x@a.b:1/./p q", _, .vless rfl rfl rfl, rfl⟩ }
  have hfull : mixed.query.IsFull := Query.isFull_ofPairs _
  ⟨hcomposed, hfull, rfl, exists_ofUrl_eq_of_isComposed hcomposed hfull⟩

end ShareLink

end LinkSieve.Link
