import LinkSieve.Proofs.Link.Shadowsocks
import LinkSieve.Proofs.Url.QueryOrder

/-!
# Lines with their parameters in another order

A format sees the query of a line only as the values of each name. So lines whose queries differ in
the order of their pieces, but not in the order of those of one name, have the same outcome: one
canonical text or one objection, whatever the rules and the banned words are.
-/

namespace LinkSieve.Link

open Url (IsCut Reorders)

/-- Two URLs differ in the text of their queries at most, and not in their parameters. -/
def SameParams (a b : Url) : Prop :=
  ∃ query, b = { a with query } ∧ Query.ofUrl b = Query.ofUrl a

/-- Two readings have failed alike or have led to URLs with the same parameters. -/
inductive SameReading : Except Rejection Url → Except Rejection Url → Prop where
  | error (r : Rejection) : SameReading (.error r) (.error r)
  | ok {a b : Url} : SameParams a b → SameReading (.ok a) (.ok b)

theorem SameParams.label_eq {a b : Url} (h : SameParams a b) : label b = label a := by
  obtain ⟨query, rfl, -⟩ := h
  rfl

theorem SameParams.scheme_eq {a b : Url} (h : SameParams a b) : b.scheme = a.scheme := by
  obtain ⟨query, rfl, -⟩ := h
  rfl

namespace SameReading

variable {r s : Except Rejection Url}

/-- What is made of both readings is the same if it is for URLs with the same parameters. -/
theorem bind_eq (h : SameReading r s) {f : Url → Except Rejection Draft}
    (hf : ∀ a b, SameParams a b → f b = f a) : (s >>= f) = (r >>= f) := by
  cases h with
  | error e => rfl
  | ok h => exact hf _ _ h

theorem readUrlOf {title line other : String}
    (h : SameReading (readUrl title line) (readUrl title other)) (scheme : String) :
    SameReading (readUrlOf scheme title line) (readUrlOf scheme title other) := by
  rw [Link.readUrlOf, Link.readUrlOf]
  generalize readUrl title line = r at h ⊢
  generalize readUrl title other = s at h ⊢
  cases h with
  | error e => exact .error e
  | ok h =>
      simp only [Outcome.ok_bind, h.scheme_eq]
      split
      · exact .error _
      · exact .ok h

end SameReading

section Drafts

variable {line other : String} {a b : Url}

theorem Vless.link_congr (h : SameParams a b) : link b = link a := by
  obtain ⟨query, rfl, hparams⟩ := h
  rw [link, link, hparams]
  rfl

theorem Vless.draft_congr (hlength : checkLength other = checkLength line)
    (h : SameReading (readUrl title line) (readUrl title other)) : draft other = draft line := by
  rw [draft, draft, hlength]
  refine bind_congr fun _ => (h.readUrlOf "vless").bind_eq fun a b hparams => ?_
  rw [link_congr hparams, hparams.label_eq]

theorem Trojan.link_congr (h : SameParams a b) : link b = link a := by
  obtain ⟨query, rfl, hparams⟩ := h
  rw [link, link, hparams]
  rfl

theorem Trojan.draft_congr (hlength : checkLength other = checkLength line)
    (h : SameReading (readUrl title line) (readUrl title other)) : draft other = draft line := by
  rw [draft, draft, hlength]
  refine bind_congr fun _ => (h.readUrlOf "trojan").bind_eq fun a b hparams => ?_
  rw [link_congr hparams, hparams.label_eq]

theorem Hysteria2.link_congr (h : SameParams a b) : link b = link a := by
  obtain ⟨query, rfl, hparams⟩ := h
  rw [link, link, hparams]
  rfl

theorem Hysteria2.draft_congr (hlength : checkLength other = checkLength line)
    (h : SameReading (readUrl title line) (readUrl title other)) : draft other = draft line := by
  rw [draft, draft, hlength]
  refine bind_congr fun _ => h.bind_eq fun a b hparams => ?_
  rw [link_congr hparams, hparams.label_eq, hparams.scheme_eq]

theorem Shadowsocks.link_congr (h : SameParams a b) : link b = link a := by
  obtain ⟨query, rfl, hparams⟩ := h
  rw [link, link, hparams]
  rfl

/-- Other than the legacy form, which is not a URL before it is expanded. -/
theorem Shadowsocks.draft_congr (hline : expandLegacy line = .ok line)
    (hother : expandLegacy other = .ok other) (hlength : checkLength other = checkLength line)
    (h : SameReading (readUrl title line) (readUrl title other)) : draft other = draft line := by
  rw [draft, draft, hlength, hline, hother]
  refine bind_congr fun _ => (h.readUrlOf "ss").bind_eq fun a b hparams => ?_
  rw [link_congr hparams, hparams.label_eq]

end Drafts

/-- A front is a scheme, in letters of either case, with its colon and slashes, and what stands
behind them. -/
structure IsFront (scheme : String) (start rest front : List Char) : Prop where
  spelled : start.map Text.lowerAscii = scheme.toList
  opaque_scheme : Url.IsOpaqueScheme scheme
  eq : front = start ++ "://".toList ++ rest

section Front

variable {scheme : String} {start rest front : List Char}

theorem IsFront.not_mem (h : IsFront scheme start rest front) {c : Char}
    (hc : Url.isSchemeChar c = false) : c ∉ start := by
  intro hmem
  rw [(h.opaque_scheme.isScheme h.spelled).chars c hmem] at hc
  cases hc

theorem IsFront.afterScheme? (h : IsFront scheme start rest front) (back : List Char) :
    afterScheme? scheme.toList (front ++ back) = some (rest ++ back) := by
  rw [h.eq, List.append_assoc, List.append_assoc]
  exact afterScheme?_spelled (h.spelled.trans h.opaque_scheme.map_lowerAscii.symm) _

theorem IsFront.hasScheme (h : IsFront scheme start rest front) (back : List Char) :
    hasScheme (String.ofList (front ++ back)) scheme = true := by
  rw [hasScheme_iff, String.toList_ofList]
  exact ⟨_, h.afterScheme? back⟩

/-- The scheme of a line stands before its first question mark. -/
theorem exists_isFront {back : List Char} (hscheme : Url.IsOpaqueScheme scheme)
    (h : hasScheme (String.ofList (front ++ '?' :: back)) scheme = true) :
    ∃ start rest, IsFront scheme start rest front := by
  obtain ⟨start, after, hstart, hline⟩ := exists_start_of_hasScheme hscheme h
  rw [String.toList_ofList] at hline
  rcases List.append_eq_append_iff.1 hline with ⟨mid, hmid, hback⟩ | ⟨rest, hrest, -⟩
  · cases mid with
    | nil => exact ⟨start, [], hstart, hscheme, by rw [hmid]; simp⟩
    | cons c mid =>
        obtain ⟨rfl, -⟩ := List.cons.inj hback
        have hmem : '?' ∈ start ++ "://".toList :=
          hmid ▸ List.mem_append_right front List.mem_cons_self
        rcases List.mem_append.1 hmem with hmem | hmem
        · exact absurd ((hscheme.isScheme hstart).chars _ hmem) (by decide)
        · exact absurd hmem (by decide)
  · exact ⟨start, rest, hstart, hscheme, hrest⟩

/-- Whether a port is too great is seen before the first question mark. -/
theorem IsFront.portOverflows_eq (h : IsFront scheme start rest front) (back other : List Char) :
    portOverflows (front ++ '?' :: back) = portOverflows (front ++ '?' :: other) := by
  have hcut (cs : List Char) : portOverflows.cutSlashes (front ++ '?' :: cs) =
      some (rest ++ '?' :: cs) := by
    rw [h.eq, List.append_assoc, List.append_assoc]
    exact cutSlashes_append (h.not_mem (by decide)) _
  have htake (cs : List Char) :
      (rest ++ '?' :: cs).takeWhile (fun c => !(c = '/' || c = '?' || c = '#')) =
        rest.takeWhile (fun c => !(c = '/' || c = '?' || c = '#')) :=
    Text.takeWhile_append_cons rfl rest cs
  rw [portOverflows, portOverflows, hcut, hcut]
  simp only [htake]

end Front

/-- A line of which the query is one part. -/
def lineOf (front query tail : List Char) : String :=
  String.ofList (front ++ '?' :: (query ++ tail))

section Lines

variable {scheme : String} {start rest front query reordered tail : List Char}

theorem checkLength_lineOf (h : Reorders (query.splitOn '&') (reordered.splitOn '&')) :
    checkLength (lineOf front reordered tail) = checkLength (lineOf front query tail) := by
  have hsize : (lineOf front reordered tail).utf8ByteSize =
      (lineOf front query tail).utf8ByteSize := by
    simp only [lineOf, Text.Utf8.utf8ByteSize_ofList, Text.Utf8.size_append, Text.Utf8.size_cons,
      h.size_eq]
  rw [checkLength, checkLength, hsize]

/-- A reordered query holds no other characters. -/
theorem isCut_reordered (hcut : IsCut front query tail)
    (h : Reorders (query.splitOn '&') (reordered.splitOn '&')) : IsCut front reordered tail := by
  refine hcut.withQuery fun c hc => ?_
  rcases h.mem hc with rfl | hc
  · decide
  · exact hcut.query c hc

theorem sameReading_readUrl (hfront : IsFront scheme start rest front)
    (hcut : IsCut front query tail) (h : Reorders (query.splitOn '&') (reordered.splitOn '&'))
    (title : String) :
    SameReading (readUrl title (lineOf front query tail))
      (readUrl title (lineOf front reordered tail)) := by
  have hrest {query : List Char} (hcut : IsCut front query tail) : IsCut rest query tail := by
    have hmem {c : Char} (hc : c ∉ front) : c ∉ rest := fun hmem =>
      hc (hfront.eq ▸ List.mem_append_right _ hmem)
    exact ⟨⟨hmem hcut.front.1, hmem hcut.front.2⟩, hcut.query, hcut.tail⟩
  have hread {query : List Char} (hcut : IsCut front query tail) :
      Url.read (lineOf front query tail) =
        (Url.read (String.ofList (front ++ '?' :: tail))).map (·.withQuery query) := by
    rw [lineOf, hfront.eq]
    exact (hrest hcut).read hfront.opaque_scheme hfront.spelled
  rw [readUrl, readUrl, hread hcut, hread (isCut_reordered hcut h)]
  cases Url.read (String.ofList (front ++ '?' :: tail)) with
  | error e =>
      have hport := hfront.portOverflows_eq (query ++ tail) (reordered ++ tail)
      simp only [Except.map, lineOf, String.toList_ofList, hport]
      exact .error _
  | ok url =>
      refine .ok ⟨_, rfl, ?_⟩
      rw [Query.ofUrl, Query.ofUrl, Url.queryPairs_withQuery, Url.queryPairs_withQuery,
        Query.ofPairs_readPairs_congr h]

/-- With an at sign before the query, a Shadowsocks line is not in legacy form. -/
theorem expandLegacy_lineOf (hfront : IsFront "ss" start rest front)
    (hcut : IsCut front query tail) (hat : '@' ∈ front) :
    Shadowsocks.expandLegacy (lineOf front query tail) = .ok (lineOf front query tail) := by
  have hrest : '@' ∈ rest := by
    rw [hfront.eq, List.mem_append, List.mem_append] at hat
    rcases hat with (hat | hat) | hat
    · exact absurd hat (hfront.not_mem (by decide))
    · exact absurd hat (by decide)
    · exact hat
  obtain ⟨before, after, rfl⟩ := List.append_of_mem hrest
  have hbefore {c : Char} (hc : c ∉ front) : c ∉ before := fun hmem =>
    hc (hfront.eq ▸ List.mem_append_right _ (List.mem_append_left _ hmem))
  have hafter : afterScheme? "ss".toList (lineOf front query tail).toList =
      some (before ++ '@' :: (after ++ '?' :: (query ++ tail))) := by
    rw [lineOf, String.toList_ofList]
    simpa using hfront.afterScheme? ('?' :: (query ++ tail))
  exact Shadowsocks.expandLegacy_eq_self hafter (hbefore hcut.front.2) (hbefore hcut.front.1)

/-- The protocols whose links are URLs as they stand: for Shadowsocks, those with an at sign before
the query. -/
def IsPlain (p : Protocol) (front : List Char) : Prop :=
  p ∈ [Protocol.vless, .trojan, .hysteria2] ∨ p = .shadowsocks ∧ '@' ∈ front

theorem draft_lineOf {p : Protocol} (hplain : IsPlain p front) (hscheme : scheme ∈ p.schemes)
    (hfront : IsFront scheme start rest front) (hcut : IsCut front query tail)
    (h : Reorders (query.splitOn '&') (reordered.splitOn '&')) :
    p.draft (lineOf front reordered tail) = p.draft (lineOf front query tail) := by
  have hlength : checkLength (lineOf front reordered tail) =
      checkLength (lineOf front query tail) :=
    checkLength_lineOf h
  have hread := sameReading_readUrl hfront hcut h p.title
  cases p with
  | vless => exact Vless.draft_congr hlength hread
  | trojan => exact Trojan.draft_congr hlength hread
  | hysteria2 => exact Hysteria2.draft_congr hlength hread
  | shadowsocks =>
      have hat : '@' ∈ front := by
        rcases hplain with hplain | ⟨-, hat⟩
        · exact absurd hplain (by decide)
        · exact hat
      obtain rfl := List.mem_singleton.1 hscheme
      exact Shadowsocks.draft_congr (expandLegacy_lineOf hfront hcut hat)
        (expandLegacy_lineOf hfront (isCut_reordered hcut h) hat) hlength hread
  | vmess =>
      rcases hplain with hplain | ⟨hplain, -⟩
      · exact absurd hplain (by decide)
      · cases hplain

theorem claims_lineOf {p : Protocol} (hscheme : scheme ∈ p.schemes)
    (hfront : IsFront scheme start rest front) : p.claims (lineOf front query tail) = true :=
  List.any_eq_true.2 ⟨scheme, hscheme, hfront.hasScheme _⟩

end Lines

/-- The outcome of a line does not depend on the order in which its query gives values to different
names. -/
theorem Dispatcher.process_reordered (rules : Policy.RuleSet) (words : Policy.WordList)
    {p : Protocol} {front query reordered tail : List Char} (hplain : IsPlain p front)
    (hcut : IsCut front query tail) (hclaims : p.claims (lineOf front query tail) = true)
    (h : Reorders (query.splitOn '&') (reordered.splitOn '&')) :
    (ofRules rules words).process (lineOf front reordered tail) =
      (ofRules rules words).process (lineOf front query tail) := by
  obtain ⟨scheme, hscheme, hstarts⟩ := List.any_eq_true.1 hclaims
  obtain ⟨start, rest, hfront⟩ := exists_isFront (Protocol.isOpaqueScheme hscheme) hstarts
  rw [process_of_claims hclaims, process_of_claims (claims_lineOf hscheme hfront),
    checkLength_lineOf h, Canonicalizer.process, Canonicalizer.process,
    draft_lineOf hplain hscheme hfront hcut h]

theorem Dispatcher.process_reordered_escaped :
    (IsPlain .vless "VLESS://u@a.b:1".toList ∧
      IsCut "VLESS://u@a.b:1".toList "a=1&b=2&%61=3&&b=x%".toList "#n m ".toList ∧
      Protocol.vless.claims (lineOf "VLESS://u@a.b:1".toList "a=1&b=2&%61=3&&b=x%".toList
        "#n m ".toList) = true ∧
      Reorders ("a=1&b=2&%61=3&&b=x%".toList.splitOn '&')
        ("a=1&%61=3&b=2&b=x%&".toList.splitOn '&')) ∧
    (ofRules .empty .empty).process (lineOf "VLESS://u@a.b:1".toList
        "a=1&%61=3&b=2&b=x%&".toList "#n m ".toList) =
      (ofRules .empty .empty).process (lineOf "VLESS://u@a.b:1".toList
        "a=1&b=2&%61=3&&b=x%".toList "#n m ".toList) :=
  have hcut : IsCut "VLESS://u@a.b:1".toList "a=1&b=2&%61=3&&b=x%".toList "#n m ".toList :=
    ⟨by decide, Text.forall_of_all (by decide), fun c hc => (Option.some.inj hc).symm⟩
  have hclaims : Protocol.vless.claims (lineOf "VLESS://u@a.b:1".toList
      "a=1&b=2&%61=3&&b=x%".toList "#n m ".toList) = true := rfl
  have hfirst := Reorders.swap (a := "b=2".toList) (b := "%61=3".toList) (.inr (by decide))
    ["a=1".toList] [[], "b=x%".toList]
  have hsecond := Reorders.swap (a := []) (b := "b=x%".toList) (.inl rfl)
    ["a=1".toList, "%61=3".toList, "b=2".toList] []
  have horder : Reorders ("a=1&b=2&%61=3&&b=x%".toList.splitOn '&')
      ("a=1&%61=3&b=2&b=x%&".toList.splitOn '&') := hfirst.trans hsecond
  ⟨⟨.inl (by decide), hcut, hclaims, horder⟩,
    process_reordered .empty .empty (.inl (by decide)) hcut hclaims horder⟩

end LinkSieve.Link
