import LinkSieve.Proofs.Text.Lowercase
import LinkSieve.Proofs.Url.Reading

/-!
# Where the parts of a URL end

In a URL that names a host, no part holds the mark at which it ends: the scheme holds no colon, the
host none outside of square brackets, and neither the host nor the path a question mark. So where
these parts have been joined, each can be found again. Lower case does not change this for the
host.
-/

namespace LinkSieve.Url

open Address (Ipv4 Ipv6)

/-- A text that is taken whole as a host, before a port or at the end of an authority. -/
structure IsHostText (cs : List Char) : Prop where
  takeHost : ∀ rest, (∀ c, rest.head? = some c → c = ':') →
    Authority.takeHost false (cs ++ rest) = (cs, rest)
  bounded : ∀ c ∈ cs, endsAuthority false c = false

theorem endsAuthority_eq_false {c : Char} (h : c ∉ "/?#".toList) :
    endsAuthority false c = false := by
  simpa [endsAuthority, and_assoc] using h

theorem isHostText_of_not_mem {cs : List Char} (h : ∀ c ∈ cs, c ∉ ":/?#[".toList) :
    IsHostText cs := by
  have hsub : ∀ d ∈ "/?#".toList, d ∈ ":/?#[".toList := Text.forall_of_all (by decide)
  constructor
  · intro rest hrest
    refine takeHost_of_not_mem (fun c hc => ?_) hrest
    constructor
    · rintro rfl
      exact h _ hc (by decide)
    · rintro rfl
      exact h _ hc (by decide)
  · intro c hc
    exact endsAuthority_eq_false (mt (hsub c) (h c hc))

theorem isHostText_bracketed {cs : List Char} (h : ∀ c ∈ cs, c ∉ "]/?#".toList) :
    IsHostText ('[' :: (cs ++ [']'])) := by
  have hsub : ∀ d ∈ "/?#".toList, d ∈ "]/?#".toList := Text.forall_of_all (by decide)
  constructor
  · intro rest hrest
    have hclose : ']' ∉ cs := fun hmem => h _ hmem (by decide)
    have hinner := takeHost_bracketed hclose hrest
    simp [Authority.takeHost, hinner]
  · intro c hc
    rw [List.mem_cons, List.mem_append, List.mem_singleton] at hc
    rcases hc with rfl | hc | rfl
    · decide
    · exact endsAuthority_eq_false (mt (hsub c) (h c hc))
    · decide

/-- A host whose name is ASCII text without a mark at which a host ends. -/
def Host.IsClean : Host → Prop
  | .name text => ∀ c ∈ text.toList, c.toNat < 0x80 ∧ c ∉ ":/?#[".toList
  | .ipv4 _ => True
  | .ipv6 _ => True

theorem Host.IsOpaque.isClean {h : Host} (ho : h.IsOpaque) : h.IsClean := by
  cases h with
  | name text =>
      intro c hc
      obtain ⟨hforbidden, halways⟩ := ho.2 c hc
      rw [isForbidden, Bool.or_eq_false_iff, List.contains_eq_mem,
        decide_eq_false_iff_not] at hforbidden
      simp only [Escaped.always, Bool.or_eq_false_iff, decide_eq_false_iff_not] at halways
      have hsub : ∀ d ∈ ":/?#[".toList, d ∈ "#/:<>?@[\\]^| ".toList :=
        Text.forall_of_all (by decide)
      exact ⟨by omega, fun hmem => hforbidden.2 (hsub c hmem)⟩
  | ipv4 ip => trivial
  | ipv6 ip => trivial

/-- The name that the text of a host stands for under a web scheme, unless it is in brackets. -/
def Host.webName (cs : List Char) : List Char :=
  (Text.Utf8.decodeLossy (Text.Percent.decode (Text.Utf8.encode cs))).map Text.lowerAscii

theorem Host.isForbiddenInName_of_readWeb {cs : List Char} {h : Host}
    (hbracket : cs.head? ≠ some '[') (hread : Host.readWeb cs = .ok h) :
    ∀ c ∈ webName cs, isForbiddenInName c = false := by
  unfold Host.readWeb at hread
  split at hread
  · exact absurd rfl hbracket
  · simp only at hread
    split at hread
    · cases hread
    · rename_i hallowed
      rw [Bool.not_eq_true, Bool.or_eq_false_iff, List.any_eq_false] at hallowed
      exact fun c hc => Bool.eq_false_iff.2 (hallowed.1 c hc)

theorem Host.isClean_of_readWeb {cs : List Char} {h : Host} (hread : Host.readWeb cs = .ok h) :
    h.IsClean := by
  by_cases hbracket : cs.head? = some '['
  · obtain ⟨inner, rfl⟩ := List.head?_eq_some_iff.1 hbracket
    exact (isOpaque_of_readBracketed hread).isClean
  have hallowed := isForbiddenInName_of_readWeb hbracket hread
  unfold Host.readWeb at hread
  split at hread
  · exact absurd rfl hbracket
  · simp only at hread
    split at hread
    · cases hread
    split at hread
    · cases hread
    split at hread
    · split at hread
      · cases hread
        trivial
      · cases hread
    · cases hread
      intro c hc
      rw [String.toList_ofList] at hc
      have hforbidden := hallowed c hc
      simp only [isForbiddenInName, Bool.or_eq_false_iff, decide_eq_false_iff_not,
        List.contains_eq_mem] at hforbidden
      have hsub : ∀ d ∈ ":/?#[".toList, d ∈ "%#/:<>?@[\\]^|".toList :=
        Text.forall_of_all (by decide)
      exact ⟨by omega, fun hmem => hforbidden.2 (hsub c hmem)⟩

theorem isHostText_lower_ipv4 (ip : Ipv4) : IsHostText (Text.lower ip.text) := by
  have hall : ∀ d ∈ Decimal.digitChars ++ ['.'],
      (d.toNat < 0x80 ∧ Text.lowerAscii d = d) ∧ d ∉ ":/?#[".toList :=
    Text.forall_of_all (by decide)
  have hchars : ∀ c ∈ ip.text, c ∈ Decimal.digitChars ++ ['.'] := fun c hc =>
    List.mem_append.2 ((Ipv4.mem_text hc).imp id List.mem_singleton.2)
  rw [Text.lower_eq_self fun c hc => (hall c (hchars c hc)).1]
  exact isHostText_of_not_mem fun c hc => (hall c (hchars c hc)).2

theorem isHostText_lower_ipv6 (ip : Ipv6) :
    IsHostText (Text.lower ('[' :: (ip.shortText ++ [']']))) := by
  have hall : ∀ d ∈ Decimal.digitChars ++ [':'],
      (d.toNat < 0x80 ∧ Text.lowerAscii d = d) ∧ d ∉ "]/?#".toList :=
    Text.forall_of_all (by decide)
  have hchars : ∀ c ∈ ip.shortText, c ∈ Decimal.digitChars ++ [':'] := fun c hc =>
    List.mem_append.2 ((Ipv6.mem_shortText hc).imp id List.mem_singleton.2)
  rw [Text.lower_eq_self]
  · exact isHostText_bracketed fun c hc => (hall c (hchars c hc)).2
  · intro c hc
    rw [List.mem_cons, List.mem_append, List.mem_singleton] at hc
    rcases hc with rfl | hc | rfl
    · decide
    · exact (hall c (hchars c hc)).1
    · decide

/-- The text of a clean host, in lower case, is taken whole as a host. -/
theorem Host.IsClean.isHostText_lower {h : Host} (hclean : h.IsClean) :
    IsHostText (Text.lower h.text.toList) := by
  cases h with
  | name text =>
      have hmark : ∀ d ∈ ":/?#[".toList, d.toNat < 0x61 := Text.forall_of_all (by decide)
      rw [Host.text, Text.lower_of_ascii fun c hc => (hclean c hc).1]
      apply isHostText_of_not_mem
      intro c hc hmem
      obtain ⟨d, hd, hlower⟩ := List.mem_map.1 hc
      rw [← Text.eq_of_lowerAscii_eq (hmark c hmem) hlower] at hmem
      exact (hclean d hd).2 hmem
  | ipv4 ip =>
      rw [Host.text, String.toList_ofList]
      exact isHostText_lower_ipv4 ip
  | ipv6 ip =>
      rw [Host.text, String.toList_ofList]
      exact isHostText_lower_ipv6 ip

theorem isClean_of_readHost {web : Bool} {cs : List Char} {host : Option Host}
    (hread : Authority.readHost web cs = .ok host) : ∀ h, host = some h → h.IsClean := by
  cases web with
  | false =>
      intro h hh
      exact (isOpaque_of_readHost hread h hh).isClean
  | true =>
      rintro h rfl
      rw [Authority.readHost, if_pos rfl] at hread
      split at hread
      · cases hread
      · cases hfound : Host.readWeb cs with
        | error e =>
            rw [hfound] at hread
            cases hread
        | ok found =>
            rw [hfound] at hread
            cases hread
            exact Host.isClean_of_readWeb hfound

theorem isClean_of_readServer {web : Bool} {implied port : Option Nat} {cs more : List Char}
    {host : Option Host} (hread : Authority.readServer web implied cs = .ok (host, port, more)) :
    ∀ h, host = some h → h.IsClean := by
  rw [Authority.readServer] at hread
  obtain ⟨found, hhost, hread⟩ := Outcome.bind_eq_ok.1 hread
  split at hread
  · obtain ⟨-, hread⟩ := Outcome.check_eq_ok.1 hread
    obtain ⟨⟨port', more'⟩, -, hread⟩ := Outcome.bind_eq_ok.1 hread
    cases hread
    exact isClean_of_readHost hhost
  · cases hread
    exact isClean_of_readHost hhost

theorem Authority.isClean_of_read {web last : Bool} {implied : Option Nat} {cs more : List Char}
    {a : Authority} (hread : Authority.read web implied last cs = .ok (a, more)) :
    ∀ h, a.host = some h → h.IsClean := by
  rw [Authority.read] at hread
  obtain ⟨-, hread⟩ := Outcome.check_eq_ok.1 hread
  obtain ⟨⟨host, port, found⟩, hserver, hread⟩ := Outcome.bind_eq_ok.1 hread
  obtain ⟨-, hread⟩ := Outcome.check_eq_ok.1 hread
  cases hread
  exact isClean_of_readServer hserver

theorem isClean_of_readFileHost {path more : List Char} {host : Option Host}
    (hread : readFileHost path = .ok (host, more)) : ∀ h, host = some h → h.IsClean := by
  rintro h rfl
  unfold readFileHost at hread
  split at hread
  · simp only at hread
    split at hread
    · cases hread
    split at hread
    · cases hread
    split at hread
    · cases hread
    · rename_i hweb
      cases hread
      exact Host.isClean_of_readWeb hweb
    · cases hread
  · cases hread
  · cases hread

/-- A path that is empty or starts with a slash, and that no query follows within it. -/
structure Path.IsRooted (path : List Char) : Prop where
  head : ∀ c, path.head? = some c → c = '/'
  not_query : '?' ∉ path

theorem Path.isRooted_nil : Path.IsRooted [] where
  head _ hc := nomatch hc
  not_query := List.not_mem_nil

theorem Path.IsNormal.isRooted {path : List Char} (h : Path.IsNormal path) :
    Path.IsRooted path where
  head _ hc := h.head? hc
  not_query hmem := absurd (h.escaped '?' hmem) (by decide)

theorem Path.isRooted_webPath (cs : List Char) : Path.IsRooted (webPath cs) := by
  unfold webPath
  split
  · exact (Path.isNormal_normalize _).isRooted
  · exact (Path.isNormal_normalize _).isRooted

/-- Naming a drive adds no character but a colon. -/
theorem Path.mem_driveFirst {segments : List (List Char)} {s : List Char}
    (h : s ∈ Path.driveFirst segments) {c : Char} (hc : c ∈ s) :
    c = ':' ∨ ∃ t ∈ segments, c ∈ t := by
  have hdrive {letter : Char} {tail : List Char} {rest : List (List Char)}
      (hc : c ∈ [letter, ':']) : c = ':' ∨ ∃ t ∈ (letter :: tail) :: rest, c ∈ t := by
    rcases List.mem_cons.1 hc with rfl | hc
    · exact .inr ⟨_, List.mem_cons_self, List.mem_cons_self⟩
    · exact .inl (List.mem_singleton.1 hc)
  unfold Path.driveFirst at h
  split at h
  · split at h
    · rcases List.mem_cons.1 h with rfl | h
      · exact hdrive hc
      rcases List.mem_cons.1 h with rfl | h
      · exact .inr ⟨_, List.mem_cons_self, List.mem_cons_of_mem _ (List.mem_cons_of_mem _ hc)⟩
      · exact .inr ⟨s, List.mem_cons_of_mem _ h, hc⟩
    · exact .inr ⟨s, h, hc⟩
  · split at h
    · rcases List.mem_cons.1 h with rfl | h
      · exact hdrive hc
      · exact .inr ⟨s, List.mem_cons_of_mem _ h, hc⟩
    · exact .inr ⟨s, h, hc⟩
  · exact .inr ⟨s, h, hc⟩

theorem Path.isRooted_normalizeFile (cs : List Char) : Path.IsRooted (Path.normalizeFile cs) := by
  rw [Path.normalizeFile]
  constructor
  · intro c hc
    exact (Option.some.inj hc).symm
  · intro hmem
    have hsegments : ∀ s ∈ Path.driveFirst ((Text.Percent.encode Escaped.inPath cs).splitOn '/'),
        '/' ∉ s ∧ ∀ c ∈ s, Escaped.inPath c = false := by
      intro s hs
      constructor
      · intro hslash
        rcases Path.mem_driveFirst hs hslash with h | ⟨t, ht, h⟩
        · cases h
        · exact (Text.mem_splitOn ht).1 h
      · intro c hc
        rcases Path.mem_driveFirst hs hc with rfl | ⟨t, ht, h⟩
        · decide
        · exact Text.Percent.not_escaped_of_mem_encode Path.inPath_escapeChars
            ((Text.mem_splitOn ht).2 c h)
    have hplain := Path.isPlain_of_mem_resolve
      (fun s (h : s ∈ ([] : List (List Char))) => nomatch h) hsegments
    rcases List.mem_cons.1 hmem with hmem | hmem
    · cases hmem
    rcases List.mem_cons.1 ((List.dropWhile_suffix _).subset hmem) with hmem | hmem
    · cases hmem
    · exact absurd (Path.not_inPath_of_mem_intercalate hplain '?' hmem) (by decide)

/-- A URL of which no part but the query holds the mark that ends it. -/
structure IsDelimited (url : Url) : Prop where
  scheme : ':' ∉ url.scheme.toList
  host : ∀ h, url.host = some h → h.IsClean
  path : Path.IsRooted url.path.toList

theorem colon_not_mem_of_cutScheme? {cs scheme rest : List Char}
    (hcut : cutScheme? cs = some (scheme, rest)) : ':' ∉ scheme := by
  unfold cutScheme? at hcut
  split at hcut
  · split at hcut
    · cases hcut
    split at hcut
    · cases hcut
      intro hmem
      obtain ⟨c, hc, hlower⟩ := List.mem_map.1 hmem
      have hcolon := Text.eq_of_lowerAscii_eq (by decide) hlower
      have hkept : isSchemeChar c = true :=
        List.all_eq_true.1 List.all_takeWhile c hc
      rw [Text.eq_of_lowerAscii_eq (by decide) hlower] at hkept
      cases hkept
    · cases hcut
  · cases hcut

theorem isDelimited_of_readServed {scheme cs : List Char} {implied : Option Nat} {url : Url}
    (hread : readServed scheme implied cs = .ok url) (hscheme : ':' ∉ scheme) :
    url.IsDelimited := by
  rw [readServed] at hread
  obtain ⟨⟨a, more⟩, hauthority, hread⟩ := Outcome.bind_eq_ok.1 hread
  cases hread
  refine ⟨?_, Authority.isClean_of_read hauthority, ?_⟩
  · change ':' ∉ (String.ofList scheme).toList
    rwa [String.toList_ofList]
  · rw [withTail, withAuthority, String.toList_ofList]
    split
    · exact Path.isRooted_webPath _
    · exact (Path.isNormal_otherPath _).isRooted

theorem isDelimited_of_readFile {scheme cs : List Char} {url : Url}
    (hread : readFile scheme cs = .ok url) (hscheme : ':' ∉ scheme) : url.IsDelimited := by
  rw [readFile] at hread
  obtain ⟨⟨host, path⟩, hhost, hread⟩ := Outcome.bind_eq_ok.1 hread
  cases hread
  refine ⟨?_, ?_, ?_⟩
  · change ':' ∉ (String.ofList scheme).toList
    rwa [String.toList_ofList]
  · intro h hh
    rw [withTail] at hh
    split at hh
    · cases hh
    · exact isClean_of_readFileHost hhost h hh
  · rw [withTail, String.toList_ofList]
    exact Path.isRooted_normalizeFile _

/-- In a URL that names a host, no part but the query holds the mark that ends it. -/
theorem isDelimited_of_read {text : String} {url : Url} (hread : Url.read text = .ok url)
    (hhost : url.host ≠ none) : url.IsDelimited := by
  rw [Url.read] at hread
  split at hread
  · cases hread
  · rename_i scheme rest hcut
    have hscheme := colon_not_mem_of_cutScheme? hcut
    split at hread
    · exact isDelimited_of_readServed hread hscheme
    · exact isDelimited_of_readFile hread hscheme
    · split at hread
      · exact isDelimited_of_readServed hread hscheme
      · cases hread
        exact absurd rfl hhost

end LinkSieve.Url
