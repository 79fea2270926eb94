import Mathlib.Logic.Relation
import LinkSieve.Proofs.Link.Identity
import LinkSieve.Proofs.Url.LetterCase
import LinkSieve.Proofs.Url.Parts
import LinkSieve.Proofs.Url.QueryOrder

/-!
# Spellings with one key

Where a link leads is told by its scheme, host, port, path and the first value of each parameter. So
its key is the same however the link is rewritten in what it says besides, and in what can be said
in several ways: the case of the scheme and the host, the order of parameters, values after the
first, a path of one slash, and a port that the scheme implies.
-/

namespace LinkSieve.Link

open Url (Host Spelling)

/-- A path as it stands in an identity, where one of one slash counts as none. -/
def Identity.pathOf (path : List Char) : String :=
  if String.ofList path = "/" then "" else String.ofList path

/-- The parameters of the query of a link. -/
def Identity.paramsOf (query : Option (List Char)) : Params :=
  (Query.ofPairs (Url.readPairs (query.getD []))).first

theorem Identity.paramsOf_some (query : List Char) :
    paramsOf (some query) = (Query.ofPairs (Url.readPairs query)).first := rfl

/-- Where a spelling leads whose host and port are read as given. -/
def Identity.ofSpelling (s : Spelling) (h : Host) (n : Option Nat) : Identity where
  scheme := String.ofList (s.scheme.map Text.lowerAscii)
  host := h.lowerText
  port := n <|> impliedPort? (String.ofList (s.scheme.map Text.lowerAscii))
  path := pathOf s.readPath
  params := paramsOf s.query

theorem Identity.ofUrl_url (s : Spelling) (h : Host) (n : Option Nat) :
    Identity.ofUrl (s.url h n) = .ok (Identity.ofSpelling s h n) := by
  have hparams : (Query.ofUrl (s.url h n)).first = paramsOf s.query := by
    rw [Query.ofUrl, Url.queryPairs, paramsOf]
    change (Query.ofPairs (Url.readPairs ((s.query.map _).getD "").toList)).first = _
    cases s.query with
    | none => rfl
    | some q =>
        rw [Option.map_some, Option.getD_some, String.toList_ofList, Url.readPairs_encode,
          Option.getD_some]
  rw [ofUrl]
  change Except.ok _ = _
  rw [hparams]
  rfl

/-- A spelling leads where its parts say. -/
theorem Identity.ofLine_text {s : Spelling} (hs : s.IsWellFormed) {id : Identity} :
    Identity.ofLine (String.ofList s.text) = .ok id ↔
      ∃ h n, s.Names h n ∧ Identity.ofSpelling s h n = id := by
  rw [ofLine_eq_ok]
  constructor
  · rintro ⟨url, hread, hurl⟩
    obtain ⟨h, n, hnames, rfl⟩ := hs.read.1 ⟨hread, host_ne_none_of_ofUrl hurl⟩
    rw [ofUrl_url] at hurl
    exact ⟨h, n, hnames, Except.ok.inj hurl⟩
  · rintro ⟨h, n, hnames, rfl⟩
    exact ⟨s.url h n, (hs.read.2 ⟨h, n, hnames, rfl⟩).1, ofUrl_url s h n⟩

/-- A character that may stand in credentials put into a link. -/
def IsUserinfoChar (c : Char) : Prop :=
  0x20 < c.toNat ∧ c ∉ "/?#@\\".toList

/-- A port that is left out though the scheme of a spelling implies one, or the implied one. -/
def IsImpliedPort (s : Spelling) (port : Option (List Char)) : Prop :=
  ∃ n, Identity.impliedPort? (String.ofList (s.scheme.map Text.lowerAscii)) = some n ∧
    ∀ digits, port = some digits →
      (∀ c ∈ digits, Decimal.isDigit 10 c = true) ∧ Decimal.ofDigits 10 digits = n

/-- A path that is left out, or of one slash. -/
def IsRootPath (path : List Char) : Prop :=
  path = [] ∨ path = ['/']

/-- A rewriting of a link at one place. Credentials are replaced, removed or, unless the link is
that of a file, put in; of a query the pairs of different names change places, or a pair is added
whose name has one. -/
inductive Respells : Spelling → Spelling → Prop where
  | userinfo {s : Spelling} (hkind : s.kind ≠ .file) {userinfo : Option (List Char)}
      (hchars : ∀ cs, userinfo = some cs → ∀ c ∈ cs, IsUserinfoChar c) :
      Respells s { s with userinfo }
  | fragment {s : Spelling} {fragment : Option (List Char)}
      (hchars : ∀ cs, fragment = some cs → ∀ c ∈ cs, 0x20 < c.toNat) :
      Respells s { s with fragment }
  | scheme {s : Spelling} {scheme : List Char}
      (hcase : scheme.map Text.lowerAscii = s.scheme.map Text.lowerAscii) :
      Respells s { s with scheme }
  | host {s : Spelling} {host : List Char}
      (hcase : host.map Text.lowerAscii = s.host.map Text.lowerAscii) :
      Respells s { s with host }
  | reorder {s : Spelling} {query reordered : List Char} (hquery : s.query = some query)
      (horder : Url.Reorders (query.splitOn '&') (reordered.splitOn '&')) :
      Respells s { s with query := some reordered }
  | repeated {s : Spelling} {query piece : List Char} (hquery : s.query = some query)
      (hchars : ∀ c ∈ piece, 0x20 < c.toNat ∧ c ≠ '#' ∧ c ≠ '&')
      (hname : ∃ pair ∈ Url.readPairs query, Url.pieceName? piece = some pair.1) :
      Respells s { s with query := some (query ++ '&' :: piece) }
  | path {s : Spelling} {path : List Char} (hold : IsRootPath s.path) (hnew : IsRootPath path) :
      Respells s { s with path }
  | port {s : Spelling} {port : Option (List Char)} (hold : IsImpliedPort s s.port)
      (hnew : IsImpliedPort s port) : Respells s { s with port }

/-- What a rewriting keeps: the parts are told apart as before, and what is read from them leads to
the same place. -/
def Keeps (s t : Spelling) : Prop :=
  t.IsWellFormed ∧ ∀ h n, s.Names h n →
    ∃ h' n', t.Names h' n' ∧ Identity.ofSpelling t h' n' = Identity.ofSpelling s h n

section Steps

variable {s : Spelling}

theorem keeps_userinfo (hs : s.IsWellFormed) (hkind : s.kind ≠ .file)
    {userinfo : Option (List Char)}
    (hchars : ∀ cs, userinfo = some cs → ∀ c ∈ cs, IsUserinfoChar c) :
    Keeps s { s with userinfo } := by
  have hends {c : Char} (hc : IsUserinfoChar c) : s.ends c = false := by
    apply Url.endsAuthority_of_not_mem
    have hsub : ∀ d ∈ "/?#\\".toList, d ∈ "/?#@\\".toList := Text.forall_of_all (by decide)
    exact mt (hsub c) hc.2
  refine ⟨?_, fun h n hn => ⟨h, n, ⟨hn.host, hn.port, hn.share⟩, rfl⟩⟩
  exact { hs with
    shown := { hs.shown with userinfo := fun cs hcs c hc => (hchars cs hcs c hc).1 }
    userinfo := fun cs hcs => ⟨hkind, fun c hc => hends (hchars cs hcs c hc)⟩ }

theorem keeps_fragment (hs : s.IsWellFormed) {fragment : Option (List Char)}
    (hchars : ∀ cs, fragment = some cs → ∀ c ∈ cs, 0x20 < c.toNat) :
    Keeps s { s with fragment } := by
  refine ⟨?_, fun h n hn => ⟨h, n, ⟨hn.host, hn.port, hn.share⟩, rfl⟩⟩
  exact { hs with shown := { hs.shown with fragment := hchars } }

theorem keeps_scheme (hs : s.IsWellFormed) {scheme : List Char}
    (hcase : scheme.map Text.lowerAscii = s.scheme.map Text.lowerAscii) :
    Keeps s { s with scheme } := by
  have hkind : ({ s with scheme } : Spelling).kind = s.kind :=
    congrArg Url.SchemeKind.ofScheme hcase
  have hends : ({ s with scheme } : Spelling).ends = s.ends := by
    funext c
    rw [Spelling.ends, hkind, Spelling.ends]
  have hscheme : Url.IsScheme scheme := by
    rw [← Url.isScheme_map_lowerAscii, hcase, Url.isScheme_map_lowerAscii]
    exact hs.scheme
  constructor
  · exact {
      shown := { hs.shown with
        scheme := fun c hc => (Url.isGraphic_of_isSchemeChar (hscheme.chars c hc)).1 }
      scheme := hscheme
      slashes := hkind ▸ hs.slashes
      userinfo := hkind ▸ hends ▸ hs.userinfo
      host_ne_nil := hs.host_ne_nil
      host := hends ▸ hs.host
      port := hkind ▸ hs.port
      path_head := hends ▸ hs.path_head
      path := hends ▸ hs.path
      query := hs.query }
  · intro h n hn
    refine ⟨h, n, ⟨?_, ?_, ?_⟩, ?_⟩
    · rw [Spelling.readHost, hkind]
      exact hn.host
    · rw [Spelling.readPort, hkind]
      exact hn.port
    · rw [hkind]
      exact hn.share
    · rw [Identity.ofSpelling, Identity.ofSpelling, Spelling.readPath, hkind, Spelling.readPath]
      simp only [hcase]

/-- The hosts that are read from texts which differ in the case of letters have one lower-case text,
and are the same unless the scheme takes them as they are. -/
theorem exists_readHost_of_map_lowerAscii_eq {host : List Char} {h : Host}
    (hcase : host.map Text.lowerAscii = s.host.map Text.lowerAscii) (hread : s.readHost = .ok h) :
    ∃ h', ({ s with host } : Spelling).readHost = .ok h' ∧ h'.lowerText = h.lowerText ∧
      (s.kind.isSlashed = true → h' = h) := by
  rw [Spelling.readHost] at hread ⊢
  change ∃ h', (if s.kind.isSlashed then Host.readWeb host else Host.readOpaque host) = .ok h' ∧ _
  cases hkind : s.kind.isSlashed with
  | true =>
      rw [hkind, if_pos rfl] at hread
      refine ⟨h, ?_, rfl, fun _ => rfl⟩
      rw [if_pos rfl, ← Host.readWeb_map_lowerAscii, hcase, Host.readWeb_map_lowerAscii, hread]
  | false =>
      rw [hkind, if_neg Bool.false_ne_true] at hread
      have htext : (Host.readOpaque host).map Host.lowerText = .ok h.lowerText := by
        rw [← Host.readOpaque_map_lowerAscii, hcase, Host.readOpaque_map_lowerAscii, hread]
        rfl
      obtain ⟨h', hread', hlower⟩ := Outcome.map_eq_ok.1 htext
      exact ⟨h', hread', hlower, fun hslashed => absurd hslashed Bool.false_ne_true⟩

theorem keeps_host (hs : s.IsWellFormed) {host : List Char}
    (hcase : host.map Text.lowerAscii = s.host.map Text.lowerAscii) :
    Keeps s { s with host } := by
  have hchars : ∀ c ∈ host, (decide (0x20 < c.toNat) && (decide (c ≠ '@') &&
      !Url.endsAuthority s.kind.isSlashed c)) = true := by
    refine Text.forall_of_map_lowerAscii_eq ?_ hcase ?_
    · cases s.kind.isSlashed <;> decide
    · intro c hc
      have hnot := (hs.host.2 c hc).2
      rw [Spelling.ends] at hnot
      simp [hs.shown.host c hc, (hs.host.2 c hc).1, hnot]
  simp only [Bool.and_eq_true, decide_eq_true_eq, Bool.not_eq_true'] at hchars
  have hne : host ≠ [] := by
    rintro rfl
    exact hs.host_ne_nil (List.map_eq_nil_iff.1 hcase.symm)
  have hdrive : Url.Path.isDrive host = Url.Path.isDrive s.host := by
    rw [← Url.Path.isDrive_map_lowerAscii, hcase, Url.Path.isDrive_map_lowerAscii]
  constructor
  · exact { hs with
      shown := { hs.shown with host := fun c hc => (hchars c hc).1 }
      host_ne_nil := hne
      host := by
        refine ⟨?_, fun c hc => (hchars c hc).2⟩
        rw [← Url.isHostSpelling_map_lowerAscii, hcase, Url.isHostSpelling_map_lowerAscii]
        exact hs.host.1 }
  · intro h n hn
    obtain ⟨h', hread, hlower, hsame⟩ := exists_readHost_of_map_lowerAscii_eq hcase hn.host
    refine ⟨h', n, ⟨hread, hn.port, fun hkind => ?_⟩, ?_⟩
    · have hfile : s.kind.isSlashed = true := by
        rw [show s.kind = .file from hkind]
        rfl
      rw [hsame hfile, hdrive]
      exact hn.share hkind
    · rw [Identity.ofSpelling, hlower]
      rfl

theorem keeps_query (hs : s.IsWellFormed) {query : List Char}
    (hchars : ∀ c ∈ query, 0x20 < c.toNat ∧ c ≠ '#')
    (hparams : Identity.paramsOf (some query) = Identity.paramsOf s.query) :
    Keeps s { s with query := some query } := by
  constructor
  · exact { hs with
      shown := { hs.shown with
        query := fun cs hcs c hc => (hchars c (Option.some.inj hcs ▸ hc)).1 }
      query := fun cs hcs hmem => (hchars _ (Option.some.inj hcs ▸ hmem)).2 rfl }
  · refine fun h n hn => ⟨h, n, ⟨hn.host, hn.port, hn.share⟩, ?_⟩
    rw [Identity.ofSpelling, hparams]
    rfl

theorem mem_query (hs : s.IsWellFormed) {query : List Char} (hquery : s.query = some query)
    {c : Char} (hc : c ∈ query) : 0x20 < c.toNat ∧ c ≠ '#' :=
  ⟨hs.shown.query query hquery c hc, fun heq => hs.query query hquery (heq ▸ hc)⟩

/-- The pieces of a query may change places unless they stand for pairs of one name. -/
theorem keeps_reorder (hs : s.IsWellFormed) {query reordered : List Char}
    (hquery : s.query = some query)
    (horder : Url.Reorders (query.splitOn '&') (reordered.splitOn '&')) :
    Keeps s { s with query := some reordered } := by
  apply keeps_query hs
  · intro c hc
    rcases horder.mem hc with rfl | hmem
    · decide
    · exact mem_query hs hquery hmem
  · rw [hquery, Identity.paramsOf_some, Identity.paramsOf_some,
      Query.ofPairs_readPairs_congr horder]

/-- A value behind the first one of its name does not count. -/
theorem keeps_repeated (hs : s.IsWellFormed) {query piece : List Char}
    (hquery : s.query = some query) (hchars : ∀ c ∈ piece, 0x20 < c.toNat ∧ c ≠ '#' ∧ c ≠ '&')
    (hname : ∃ pair ∈ Url.readPairs query, Url.pieceName? piece = some pair.1) :
    Keeps s { s with query := some (query ++ '&' :: piece) } := by
  obtain ⟨pair, hpair, hname⟩ := hname
  obtain ⟨hne, hsame⟩ := Url.pieceName?_eq_some.1 hname
  apply keeps_query hs
  · intro c hc
    rw [List.mem_append, List.mem_cons] at hc
    rcases hc with hmem | rfl | hmem
    · exact mem_query hs hquery hmem
    · decide
    · exact ⟨(hchars c hmem).1, (hchars c hmem).2.1⟩
  · rw [hquery, Identity.paramsOf_some, Identity.paramsOf_some,
      Url.readPairs_append_cons query hne (fun hmem => (hchars _ hmem).2.2 rfl),
      Query.first_ofPairs_append_of_mem hpair hsame]

theorem pathOf_of_isRootPath {path : List Char} (hpath : IsRootPath path) :
    Identity.pathOf ({ s with path } : Spelling).readPath = "" := by
  have hkind : ({ s with path } : Spelling).kind = s.kind := rfl
  rw [Spelling.readPath, hkind]
  cases s.kind <;> rcases hpath with rfl | rfl <;> rfl

theorem keeps_path (hs : s.IsWellFormed) {path : List Char} (hold : IsRootPath s.path)
    (hnew : IsRootPath path) : Keeps s { s with path } := by
  have hdrop {path : List Char} (hpath : IsRootPath path) : (Url.slashed path).drop 1 = [] := by
    rcases hpath with rfl | rfl <;> rfl
  have hslash : ∀ c ∈ path, c = '/' := by
    rcases hnew with rfl | rfl
    · exact fun _ hc => nomatch hc
    · exact fun _ hc => List.mem_singleton.1 hc
  have hother {c : Char} (hc : c ≠ '/') : c ∉ path := mt (hslash c) hc
  constructor
  · exact { hs with
      shown := { hs.shown with path := fun c hc => hslash c hc ▸ by decide }
      path_head := fun c hc => .inl <| by
        rw [hslash c (List.mem_of_mem_head? hc)]
        rfl
      path := ⟨hother (by decide), hother (by decide),
        mt (List.takeWhile_subset _ ·) (hother (by decide))⟩ }
  · refine fun h n hn => ⟨h, n, ⟨hn.host, hn.port, fun hkind => ?_⟩, ?_⟩
    · obtain ⟨hdrive, hlocal, hstart⟩ := hn.share hkind
      rw [hdrop hold] at hstart
      exact ⟨hdrive, hlocal, (hdrop hnew).symm ▸ hstart⟩
    · have hpath : Identity.pathOf s.readPath = "" := pathOf_of_isRootPath hold
      rw [Identity.ofSpelling, pathOf_of_isRootPath hnew, Identity.ofSpelling, hpath]

/-- A scheme that implies a port for an identity is one of the web's. -/
theorem ofScheme_of_impliedPort? {scheme : List Char} {n : Nat}
    (h : Identity.impliedPort? (String.ofList scheme) = some n) :
    Url.SchemeKind.ofScheme scheme = .web n ∧ n ≤ 65535 := by
  unfold Identity.impliedPort? at h
  rw [Url.SchemeKind.ofScheme]
  split at h
  · rename_i hscheme
    cases h
    rw [hscheme]
    exact ⟨rfl, by decide⟩
  · rename_i hscheme
    cases h
    rw [hscheme]
    exact ⟨rfl, by decide⟩
  · cases h

theorem readPort_of_isImpliedPort {port : Option (List Char)} (h : IsImpliedPort s port) :
    ({ s with port } : Spelling).readPort = .ok none := by
  obtain ⟨n, himplied, hdigits⟩ := h
  obtain ⟨hkind, hle⟩ := ofScheme_of_impliedPort? himplied
  cases port with
  | none => rfl
  | some digits =>
      change Spelling.portOf (Url.SchemeKind.ofScheme _).implied? digits = .ok none
      rw [hkind, Spelling.portOf, (hdigits digits rfl).2, if_neg (Nat.not_lt.2 hle), if_pos]
      simp [Url.SchemeKind.implied?]

theorem keeps_port (hs : s.IsWellFormed) {port : Option (List Char)} (hold : IsImpliedPort s s.port)
    (hnew : IsImpliedPort s port) : Keeps s { s with port } := by
  have hread := readPort_of_isImpliedPort hnew
  have hnone : s.readPort = .ok none := readPort_of_isImpliedPort hold
  obtain ⟨m, himplied, hdigits⟩ := hnew
  have hkind : s.kind = .web m := (ofScheme_of_impliedPort? himplied).1
  have hfile : s.kind ≠ .file := by
    rw [hkind]
    rintro ⟨⟩
  have hshown : ∀ c : Char, Decimal.isDigit 10 c = true → 0x20 < c.toNat :=
    Decimal.forall_of_isDigit (by decide)
  have hback : s.ends '\\' = true := by
    rw [Spelling.ends, hkind]
    rfl
  have hhead : ∀ c, s.path.head? = some c → s.ends c = true := by
    intro c hc
    rcases hs.path_head c hc with hends | ⟨rfl, -⟩
    · exact hends
    · exact hback
  constructor
  · exact { hs with
      shown := { hs.shown with
        port := fun digits hport c hc => hshown c ((hdigits digits hport).1 c hc) }
      port := fun digits hport => ⟨hfile, (hdigits digits hport).1⟩
      path_head := fun c hc => .inl (hhead c hc) }
  · intro h n hn
    have hn' : n = none := by
      have hport := hn.port
      rw [hnone] at hport
      exact (Except.ok.inj hport).symm
    subst hn'
    exact ⟨h, none, ⟨hn.host, hread, hn.share⟩, rfl⟩

end Steps

theorem Respells.keeps {s t : Spelling} (hs : s.IsWellFormed) (h : Respells s t) : Keeps s t := by
  cases h with
  | userinfo hkind hchars => exact keeps_userinfo hs hkind hchars
  | fragment hchars => exact keeps_fragment hs hchars
  | scheme hcase => exact keeps_scheme hs hcase
  | host hcase => exact keeps_host hs hcase
  | reorder hquery horder => exact keeps_reorder hs hquery horder
  | repeated hquery hchars hname => exact keeps_repeated hs hquery hchars hname
  | path hold hnew => exact keeps_path hs hold hnew
  | port hold hnew => exact keeps_port hs hold hnew

theorem Keeps.trans {s t u : Spelling} (hst : Keeps s t) (htu : Keeps t u) : Keeps s u := by
  refine ⟨htu.1, fun h n hnames => ?_⟩
  obtain ⟨h', n', hnames', hsame'⟩ := hst.2 h n hnames
  obtain ⟨h'', n'', hnames'', hsame''⟩ := htu.2 h' n' hnames'
  exact ⟨h'', n'', hnames'', hsame''.trans hsame'⟩

/-- One rewriting after another keeps what each of them keeps. -/
theorem keeps_of_respells {s t : Spelling} (hs : s.IsWellFormed)
    (h : Relation.ReflTransGen Respells s t) : Keeps s t := by
  induction h with
  | refl => exact ⟨hs, fun h n hnames => ⟨h, n, hnames, rfl⟩⟩
  | tail _ hstep ih => exact ih.trans (hstep.keeps ih.1)

theorem Keeps.identityKey_eq {s t : Spelling} (hs : s.IsWellFormed) (h : Keeps s t) {key : String}
    (hkey : identityKey (String.ofList s.text) = .ok key) :
    identityKey (String.ofList t.text) = .ok key := by
  obtain ⟨id, hid, rfl⟩ := identityKey_eq_ok.1 hkey
  obtain ⟨host, port, hnames, rfl⟩ := (Identity.ofLine_text hs).1 hid
  obtain ⟨host', port', hnames', hsame⟩ := h.2 host port hnames
  exact identityKey_eq_ok.2 ⟨_, (Identity.ofLine_text h.1).2 ⟨host', port', hnames', hsame⟩, rfl⟩

/-- A line with a key names a host, so it is told apart into the parts of a link. -/
theorem exists_spelling_of_identityKey {line key : String}
    (hline : ∀ c ∈ line.toList, 0x20 < c.toNat) (hkey : identityKey line = .ok key) :
    ∃ s : Spelling, s.IsWellFormed ∧ String.ofList s.text = line := by
  obtain ⟨id, hid, -⟩ := identityKey_eq_ok.1 hkey
  obtain ⟨url, hread, hurl⟩ := Identity.ofLine_eq_ok.1 hid
  exact Url.exists_spelling_of_read hline hread (Identity.host_ne_none_of_ofUrl hurl)

/-- A line with a key is the text of a spelling, and however that is rewritten in what the key does
not tell, the text has the same key. -/
theorem identityKey_respelled {line key : String} (hline : ∀ c ∈ line.toList, 0x20 < c.toNat)
    (hkey : identityKey line = .ok key) :
    (∃ s : Spelling, s.IsWellFormed ∧ String.ofList s.text = line) ∧
      ∀ s t : Spelling, s.IsWellFormed → String.ofList s.text = line →
        Relation.ReflTransGen Respells s t →
          t.IsWellFormed ∧ identityKey (String.ofList t.text) = .ok key := by
  refine ⟨exists_spelling_of_identityKey hline hkey, ?_⟩
  rintro s t hs rfl hsteps
  have hkeeps : Keeps s t := keeps_of_respells hs hsteps
  exact ⟨hkeeps.1, hkeeps.identityKey_eq hs hkey⟩

/-- A link of the web that is rewritten in all the ways there are. -/
theorem identityKey_respelled_web :
    identityKey "HTTP://u:p@Ex.com/?b=2&a=1#x" = .ok "http://ex.com:80?a=1&b=2" ∧
      identityKey "hTTp://v@ex.COM:80?a=1&b=2&a=3" = .ok "http://ex.com:80?a=1&b=2" := by
  let s : Spelling :=
    { scheme := "HTTP".toList, slashes := "//".toList, userinfo := some "u:p".toList,
      host := "Ex.com".toList, port := none, path := "/".toList, query := some "b=2&a=1".toList,
      fragment := some "x".toList }
  have hkind : s.kind ≠ .file := by
    rw [show s.kind = .web 80 from rfl]
    exact nofun
  have hs : s.IsWellFormed := {
    shown := Url.Spelling.isShown_iff.2 (Text.forall_of_all (by decide))
    scheme := ⟨⟨'H', rfl, rfl⟩, Text.forall_of_all (by decide)⟩
    slashes := show ∀ c ∈ s.slashes, c = '/' ∨ c = '\\' from Text.forall_of_all (by decide)
    userinfo := by rintro _ ⟨⟩; exact ⟨hkind, Text.forall_of_all (by decide)⟩
    host_ne_nil := by decide
    host := ⟨.inl (Text.forall_of_all (by decide)), Text.forall_of_all (by decide)⟩
    port := by rintro _ ⟨⟩
    path_head := by rintro _ ⟨⟩; exact .inl rfl
    path := by decide
    query := by rintro _ ⟨⟩; decide }
  let s₁ : Spelling := { s with userinfo := some "v".toList }
  let s₂ : Spelling := { s₁ with fragment := none }
  let s₃ : Spelling := { s₂ with scheme := "hTTp".toList }
  let s₄ : Spelling := { s₃ with host := "ex.COM".toList }
  let s₅ : Spelling := { s₄ with query := some "a=1&b=2".toList }
  let s₆ : Spelling := { s₅ with query := some "a=1&b=2&a=3".toList }
  let s₇ : Spelling := { s₆ with path := [] }
  let t : Spelling := { s₇ with port := some "80".toList }
  have huser : ∀ c ∈ "v".toList, IsUserinfoChar c := by
    unfold IsUserinfoChar
    exact Text.forall_of_all (by decide)
  have hname : ∃ pair ∈ Url.readPairs "a=1&b=2".toList,
      Url.pieceName? "a=3".toList = some pair.1 := ⟨("a", "1"), by decide, by decide⟩
  have hdigits : (∀ c ∈ "80".toList, Decimal.isDigit 10 c = true) ∧
      Decimal.ofDigits 10 "80".toList = 80 := ⟨Text.forall_of_all (by decide), rfl⟩
  have h₁ : Respells s s₁ := .userinfo hkind (by rintro _ ⟨⟩; exact huser)
  have h₂ : Respells s₁ s₂ := .fragment nofun
  have h₃ : Respells s₂ s₃ := .scheme rfl
  have h₄ : Respells s₃ s₄ := .host rfl
  have h₅ : Respells s₄ s₅ := .reorder rfl (.swap (.inr (by decide)) [] [])
  have h₆ : Respells s₅ s₆ := .repeated rfl (Text.forall_of_all (by decide)) hname
  have h₇ : Respells s₆ s₇ := .path (.inr rfl) (.inl rfl)
  have h₈ : Respells s₇ t := .port ⟨80, rfl, nofun⟩ ⟨80, rfl, by rintro _ ⟨⟩; exact hdigits⟩
  have hsteps : Relation.ReflTransGen Respells s t :=
    .head h₁ <| .head h₂ <| .head h₃ <| .head h₄ <| .head h₅ <| .head h₆ <| .head h₇ <| .single h₈
  have hline : ∀ c ∈ "HTTP://u:p@Ex.com/?b=2&a=1#x".toList, 0x20 < c.toNat :=
    Text.forall_of_all (by decide)
  have hkey : identityKey "HTTP://u:p@Ex.com/?b=2&a=1#x" = .ok "http://ex.com:80?a=1&b=2" := rfl
  exact ⟨hkey, ((identityKey_respelled hline hkey).2 s t hs rfl hsteps).2⟩

end LinkSieve.Link
