import LinkSieve.Proofs.Address.Server
import LinkSieve.Proofs.Url.Spelling

/-!
# The parts of a text that names a host

Every text from which a URL with a host is read is the text of a spelling: the parts are those that
the reading cuts it into, and that each of them could be read says that it holds no mark at which it
would end too early.
-/

namespace LinkSieve.Url

open Text (led)

section Host

variable {cs : List Char} {h : Host}

theorem isHostSpelling_of_readBracketed {inner : List Char}
    (hread : Host.readBracketed inner = .ok h) :
    IsHostSpelling ('[' :: inner) ∧ '@' ∉ '[' :: inner := by
  rw [Host.readBracketed] at hread
  split at hread
  · rename_i hlast
    obtain ⟨inner, rfl⟩ := List.getLast?_eq_some_iff.1 hlast
    rw [List.dropLast_concat] at hread
    split at hread
    · rename_i ip hip
      have hno {d : Char} (hd : ¬Address.Ipv6.InText d) : d ∉ inner :=
        fun hmem => hd (Address.Ipv6.inText_of_read? hip d hmem)
      have hclose : ']' ∉ inner := hno (by rw [Address.Ipv6.InText]; decide)
      have hat : '@' ∉ inner := hno (by rw [Address.Ipv6.InText]; decide)
      constructor
      · exact .inr ⟨_, rfl, hclose⟩
      · rw [List.mem_cons, List.mem_append, List.mem_singleton]
        rintro (hmem | hmem | hmem)
        · cases hmem
        · exact hat hmem
        · cases hmem
    · cases hread
  · cases hread

/-- A text from which a host is read is one as a host may be written. -/
theorem isHostSpelling_of_read {web : Bool}
    (hread : (if web then Host.readWeb cs else Host.readOpaque cs) = .ok h) :
    IsHostSpelling cs ∧ '@' ∉ cs := by
  by_cases hbracket : cs.head? = some '['
  · obtain ⟨inner, rfl⟩ := List.head?_eq_some_iff.1 hbracket
    apply isHostSpelling_of_readBracketed (h := h)
    cases web <;> exact hread
  · suffices hno : ∀ d ∈ ":[@".toList, d ∉ cs by
      refine ⟨.inl fun c hc => ⟨?_, ?_⟩, hno _ (by decide)⟩
      · rintro rfl
        exact hno _ (by decide) hc
      · rintro rfl
        exact hno _ (by decide) hc
    intro d hd hmem
    cases web with
    | false =>
        have hall : ∀ d ∈ ":[@".toList, Host.isForbidden d = true := Text.forall_of_all (by decide)
        have hany : cs.any Host.isForbidden = true := List.any_eq_true.2 ⟨d, hmem, hall d hd⟩
        rw [if_neg Bool.false_ne_true, Host.readOpaque_of_head? hbracket, if_pos hany] at hread
        cases hread
    | true =>
        have hall : ∀ d ∈ ":[@".toList, (d.toNat < 0x80 ∧ d ≠ '%' ∧ Text.Percent.digit? d = none) ∧
            Text.lowerAscii d = d ∧ Host.isForbiddenInName d = true :=
          Text.forall_of_all (by decide)
        obtain ⟨⟨hascii, hpercent, hdigit⟩, hself, hforbidden⟩ := hall d hd
        have hname : d ∈ Host.webName cs := by
          have hdecoded := Text.Percent.mem_decodeLossy_decode hascii hpercent hdigit hmem
          exact hself ▸ List.mem_map_of_mem hdecoded
        rw [Host.isForbiddenInName_of_readWeb hbracket hread d hname] at hforbidden
        cases hforbidden

end Host

theorem head?_takeHost {bracketed : Bool} {cs : List Char} {c : Char}
    (hc : (Authority.takeHost bracketed cs).2.head? = some c) : c = ':' := by
  induction cs generalizing bracketed with
  | nil => cases hc
  | cons d cs ih =>
      rw [Authority.takeHost] at hc
      split at hc
      · rename_i hcolon
        obtain rfl := Option.some.inj hc
        exact of_decide_eq_true (Bool.and_eq_true_iff.1 hcolon).1
      · exact ih hc

theorem exists_port_of_readPort {implied n : Option Nat} {cs more : List Char}
    (hread : Authority.readPort implied cs = .ok (n, more)) :
    ∃ digits, cs = digits ++ more ∧ (∀ c ∈ digits, Decimal.isDigit 10 c = true) ∧
      ∀ c, more.head? = some c → c = '\\' := by
  rw [Authority.readPort] at hread
  split at hread
  · cases hread
  · rename_i hfits
    obtain ⟨-, rfl⟩ := Prod.mk.inj (Except.ok.inj hread)
    refine ⟨_, List.takeWhile_append_dropWhile.symm, List.all_eq_true.1 List.all_takeWhile, ?_⟩
    intro c hc
    cases hmore : cs.dropWhile (Decimal.isDigit 10) with
    | nil =>
        rw [hmore] at hc
        cases hc
    | cons d rest =>
        rw [hmore] at hc hfits
        obtain rfl := Option.some.inj hc
        simp only [List.isEmpty_cons, List.head?_cons, Option.some.injEq, Bool.false_or,
          Bool.or_eq_true, Bool.not_eq_true', decide_eq_false_iff_not, not_or] at hfits
        exact Decidable.of_not_not hfits.2

/-- A host, a port and what is left behind them of the stretch that they stand in: at most a
backslash and what follows it, and behind a port only. -/
structure IsServer (host : List Char) (port : Option (List Char)) (more : List Char) : Prop where
  ne_nil : host ≠ []
  spelling : IsHostSpelling host ∧ '@' ∉ host
  digits : ∀ cs, port = some cs → ∀ c ∈ cs, Decimal.isDigit 10 c = true
  rest : ∀ c, more.head? = some c → c = '\\' ∧ port.isSome = true

theorem isHostSpelling_of_readHost {web : Bool} {cs : List Char} {found : Option Host}
    (hread : Authority.readHost web cs = .ok found) (hfound : found ≠ none) :
    cs ≠ [] ∧ IsHostSpelling cs ∧ '@' ∉ cs := by
  have hne : cs ≠ [] := by
    rintro rfl
    cases web with
    | false =>
        cases hread
        exact hfound rfl
    | true => cases hread
  rw [readHost_eq hne] at hread
  obtain ⟨h, hread, -⟩ := Outcome.map_eq_ok.1 hread
  exact ⟨hne, isHostSpelling_of_read hread⟩

theorem exists_parts_of_readServer {web : Bool} {implied n : Option Nat} {cs more : List Char}
    {found : Option Host} (hread : Authority.readServer web implied cs = .ok (found, n, more))
    (hfound : found ≠ none) :
    ∃ host port, cs = host ++ (led ':' port ++ more) ∧ IsServer host port more := by
  have hcut := takeHost_append false cs
  have hcolon := @head?_takeHost false cs
  rw [Authority.readServer] at hread
  generalize Authority.takeHost false cs = cut at hread hcut hcolon
  obtain ⟨host, after⟩ := cut
  obtain rfl : host ++ after = cs := hcut
  obtain ⟨h, hhost, hread⟩ := Outcome.bind_eq_ok.1 hread
  split at hread
  · obtain ⟨-, hread⟩ := Outcome.check_eq_ok.1 hread
    obtain ⟨⟨n', more'⟩, hport, hread⟩ := Outcome.bind_eq_ok.1 hread
    cases hread
    obtain ⟨hne, hspelling⟩ := isHostSpelling_of_readHost hhost hfound
    obtain ⟨digits, rfl, hall, hmore⟩ := exists_port_of_readPort hport
    refine ⟨host, some digits, rfl, hne, hspelling, ?_, fun c hc => ⟨hmore c hc, rfl⟩⟩
    rintro _ ⟨⟩
    exact hall
  · rename_i hno
    cases hread
    obtain ⟨hne, hspelling⟩ := isHostSpelling_of_readHost hhost hfound
    have hnil : more = [] := by
      cases more with
      | nil => rfl
      | cons c rest =>
          obtain rfl := hcolon rfl
          exact absurd rfl (hno rest)
    subst hnil
    exact ⟨host, none, rfl, hne, hspelling, by rintro _ ⟨⟩, by rintro _ ⟨⟩⟩

/-- An authority that names a host consists of credentials, a host and a port. The at sign of the
credentials is the last one, so none stands behind it. -/
theorem exists_parts_of_readAuthority {web last : Bool} {implied : Option Nat}
    {cs more : List Char} {a : Authority}
    (hread : Authority.read web implied last cs = .ok (a, more)) (hhost : a.host ≠ none) :
    ∃ userinfo host port, cs = credentialsText userinfo ++ (host ++ (led ':' port ++ more)) ∧
      '@' ∉ more ∧ IsServer host port more := by
  rw [Authority.read] at hread
  obtain ⟨-, hread⟩ := Outcome.check_eq_ok.1 hread
  obtain ⟨⟨found, n, more'⟩, hserver, hread⟩ := Outcome.bind_eq_ok.1 hread
  obtain ⟨-, hread⟩ := Outcome.check_eq_ok.1 hread
  cases hread
  obtain ⟨host, port, htext, hparts⟩ := exists_parts_of_readServer hserver hhost
  have hmore {rest : List Char} (hrest : '@' ∉ rest)
      (htext : rest = host ++ (led ':' port ++ more)) : '@' ∉ more := by
    rw [htext, List.mem_append, List.mem_append, not_or, not_or] at hrest
    exact hrest.2.2
  cases hcut : Text.cutLast? '@' cs with
  | none =>
      rw [hcut] at htext
      exact ⟨none, host, port, htext, hmore (Text.not_mem_of_cutLast?_eq_none hcut) htext, hparts⟩
  | some found =>
      obtain ⟨before, after⟩ := found
      rw [hcut] at htext
      refine ⟨some before, host, port, ?_, hmore (Text.not_mem_of_cutLast? hcut) htext, hparts⟩
      rw [Text.cutLast?_eq_some hcut, ← htext, credentialsText, List.append_assoc]
      rfl

/-- Whether a character is a slash of either kind. -/
def isSlash (c : Char) : Bool :=
  c = '/' || c = '\\'

/-- Up to its first slash of either kind a text holds no backslash. -/
theorem takeWhile_slashed (cs : List Char) :
    (slashed cs).takeWhile (· ≠ '/') = cs.takeWhile (!isSlash ·) := by
  have hcomp : (fun c => decide (c ≠ '/')) ∘ (fun c => if c = '\\' then '/' else c) =
      (!isSlash ·) := by
    funext c
    by_cases hback : c = '\\'
    · simp [hback, isSlash]
    · simp [hback, isSlash]
  rw [slashed, List.takeWhile_map, hcomp]
  apply slashed_eq_self
  intro hmem
  exact absurd (List.all_eq_true.1 List.all_takeWhile _ hmem) (by decide)

/-- A spelling of a file's URL: what stands behind the slashes, up to the next slash of either kind,
is the host. -/
def Spelling.ofFile (scheme slashes back : List Char) (query fragment : Option (List Char)) :
    Spelling where
  scheme := scheme
  slashes := slashes
  userinfo := none
  host := back.takeWhile (!isSlash ·)
  port := none
  path := back.dropWhile (!isSlash ·)
  query := query
  fragment := fragment

section OfFile

variable {scheme slashes back : List Char} {query fragment : Option (List Char)} {h : Host}

theorem Spelling.text_ofFile : (ofFile scheme slashes back query fragment).text =
    scheme ++ ':' :: (slashes ++ (back ++ (led '?' query ++ led '#' fragment))) := by
  have hsplit : back.takeWhile (!isSlash ·) ++ back.dropWhile (!isSlash ·) = back :=
    List.takeWhile_append_dropWhile
  simp only [ofFile, text, credentials, credentialsText, server, led, endText, List.append_nil,
    List.nil_append]
  rw [← List.append_assoc (back.takeWhile _), hsplit]

theorem Spelling.isWellFormed_ofFile (hscheme : IsScheme scheme)
    (hkind : SchemeKind.ofScheme (scheme.map Text.lowerAscii) = .file)
    (hshown : (ofFile scheme slashes back query fragment).IsShown)
    (hslashes : slashed slashes = "//".toList) (hback : '?' ∉ back ∧ '#' ∉ back)
    (hne : back.takeWhile (!isSlash ·) ≠ [])
    (hweb : Host.readWeb (back.takeWhile (!isSlash ·)) = .ok h)
    (hquery : ∀ q, query = some q → '#' ∉ q) :
    (ofFile scheme slashes back query fragment).IsWellFormed := by
  let s : Spelling := ofFile scheme slashes back query fragment
  have hname : s.kind = .file := hkind
  have hends : s.ends = endsAuthority true := by
    funext c
    rw [ends, hname]
    rfl
  have hinner : ∀ c ∈ s.host, s.ends c = false := by
    intro c hc
    have hnot : (!isSlash c) = true := List.all_eq_true.1 List.all_takeWhile c hc
    have hmem : c ∈ back := List.takeWhile_subset _ hc
    have hall : ∀ d ∈ "/?#\\".toList, d = '?' ∨ d = '#' ∨ (!isSlash d) = false :=
      Text.forall_of_all (by decide)
    rw [hends]
    apply endsAuthority_of_not_mem
    intro hmark
    rcases hall c hmark with rfl | rfl | hslash
    · exact hback.1 hmem
    · exact hback.2 hmem
    · rw [hslash] at hnot
      cases hnot
  have hhead : ∀ c, s.path.head? = some c → s.ends c = true := by
    intro c hc
    have hslash := Text.not_of_head?_dropWhile hc
    simp only [isSlash, Bool.not_eq_false', Bool.or_eq_true, decide_eq_true_eq] at hslash
    rw [hends]
    rcases hslash with rfl | rfl <;> rfl
  have hnone : s.path.takeWhile (!s.ends ·) = [] := by
    refine Text.takeWhile_append_left (fun c hc => ?_) []
    rw [hhead c hc]
    rfl
  have hpath {c : Char} (hc : c ∈ s.path) : c ∈ back := (List.dropWhile_suffix _).subset hc
  have hspelling : IsHostSpelling s.host ∧ '@' ∉ s.host :=
    @isHostSpelling_of_read s.host h true hweb
  exact {
    shown := hshown
    scheme := hscheme
    slashes := hname ▸ hslashes
    userinfo := by rintro _ ⟨⟩
    host_ne_nil := hne
    host := ⟨hspelling.1, fun c hc => ⟨fun heq => hspelling.2 (heq ▸ hc), hinner c hc⟩⟩
    port := by rintro _ ⟨⟩
    path_head := fun c hc => .inl (hhead c hc)
    path := ⟨mt hpath hback.1, mt hpath hback.2, hnone ▸ List.not_mem_nil⟩
    query := hquery }

end OfFile

theorem exists_of_readFileHost {path rest : List Char} {found : Option Host}
    (hread : readFileHost path = .ok (found, rest)) (hfound : found ≠ none) :
    ∃ back h, path = '/' :: '/' :: back ∧ back.takeWhile (· ≠ '/') ≠ [] ∧
      Host.readWeb (back.takeWhile (· ≠ '/')) = .ok h := by
  unfold readFileHost at hread
  split at hread
  · rename_i back
    simp only at hread
    split at hread
    · cases hread
      exact absurd rfl hfound
    · split at hread
      · cases hread
        exact absurd rfl hfound
      · rename_i hne
        refine ⟨back, ?_⟩
        split at hread
        · cases hread
          exact absurd rfl hfound
        · rename_i h _ hweb
          exact ⟨h, rfl, fun hnil => hne (List.isEmpty_iff.2 hnil), hweb⟩
        · cases hread
  · cases hread
    exact absurd rfl hfound
  · cases hread
    exact absurd rfl hfound

theorem eq_of_cutTail {cs path : List Char} {query fragment : Option (List Char)}
    (h : cutTail cs = (path, query, fragment)) :
    cs = path ++ (led '?' query ++ led '#' fragment) ∧ '?' ∉ path ∧ '#' ∉ path ∧
      ∀ q, query = some q → '#' ∉ q := by
  rw [cutTail] at h
  generalize hfragment : Text.cutOption '#' cs = cut at h
  obtain ⟨front, found⟩ := cut
  simp only at h
  generalize hquery : Text.cutOption '?' front = cut at h
  obtain ⟨before, after⟩ := cut
  cases h
  obtain ⟨rfl, hnumber⟩ := Text.eq_of_cutOption hfragment
  obtain ⟨rfl, hmark⟩ := Text.eq_of_cutOption hquery
  rw [List.mem_append, not_or] at hnumber
  refine ⟨List.append_assoc _ _ _, hmark, hnumber.1, ?_⟩
  rintro q rfl hmem
  exact hnumber.2 (List.mem_cons_of_mem _ hmem)

theorem eq_of_cutScheme? {cs scheme rest : List Char} (h : cutScheme? cs = some (scheme, rest)) :
    ∃ start, cs = start ++ ':' :: rest ∧ IsScheme start ∧ start.map Text.lowerAscii = scheme := by
  unfold cutScheme? at h
  split at h
  · rename_i c tail
    split at h
    · cases h
    · rename_i halpha
      split at h
      · rename_i hdrop
        cases h
        refine ⟨_, ?_, ⟨?_, List.all_eq_true.1 List.all_takeWhile⟩, rfl⟩
        · rw [← hdrop, List.takeWhile_append_dropWhile]
        · have hletter : c.isAlpha = true := by simpa using halpha
          have hchar : isSchemeChar c = true := by
            simp only [isSchemeChar, Char.isAlphanum, hletter, Bool.true_or]
          rw [List.takeWhile_cons, if_pos hchar]
          exact ⟨c, rfl, hletter⟩
      · cases h
  · cases h

section Texts

variable {scheme slashes body : List Char} {kind : SchemeKind} {url : Url}

/-- The parts of a text that stand behind the slashes. -/
theorem exists_parts_of_readServed {implied : Option Nat}
    (hread : readServed scheme implied body = .ok url) (hhost : url.host ≠ none) :
    ∃ userinfo host port more back,
      body = credentialsText userinfo ++ (host ++ (led ':' port ++ (more ++ back))) ∧
      IsServer host port more ∧ '@' ∉ more ∧
      (∀ c ∈ credentialsText userinfo ++ (host ++ (led ':' port ++ more)),
        endsAuthority implied.isSome c = false) ∧
      ∀ c, back.head? = some c → endsAuthority implied.isSome c = true := by
  rw [readServed] at hread
  obtain ⟨⟨a, more⟩, hauthority, hread⟩ := Outcome.bind_eq_ok.1 hread
  have hfound : a.host ≠ none := by
    rw [← Except.ok.inj hread] at hhost
    exact hhost
  obtain ⟨userinfo, host, port, hfront, hat, hserver⟩ :=
    exists_parts_of_readAuthority hauthority hfound
  have hsplit :=
    List.takeWhile_append_dropWhile (p := (!endsAuthority implied.isSome ·)) (l := body)
  refine ⟨userinfo, host, port, more, body.dropWhile (!endsAuthority implied.isSome ·), ?_, hserver,
    hat, ?_, ?_⟩
  · rw [hfront] at hsplit
    simpa only [List.append_assoc] using hsplit.symm
  · intro c hc
    rw [← hfront] at hc
    simpa using List.all_eq_true.1 List.all_takeWhile c hc
  · intro c hc
    have hhead := List.head?_dropWhile_not (!endsAuthority implied.isSome ·) body
    rw [hc] at hhead
    simpa using hhead

/-- A text from which a URL with a host is read, behind the slashes, is that of a spelling. -/
theorem exists_spelling_of_readServed (hscheme : IsScheme scheme)
    (hkind : SchemeKind.ofScheme (scheme.map Text.lowerAscii) = kind) (hfile : kind ≠ .file)
    (hslashes : kind.TakesSlashes slashes)
    (hshown : ∀ c ∈ scheme ++ ':' :: (slashes ++ body), 0x20 < c.toNat)
    (hread : readServed (scheme.map Text.lowerAscii) kind.implied? body = .ok url)
    (hhost : url.host ≠ none) :
    ∃ s : Spelling, s.IsWellFormed ∧ s.text = scheme ++ ':' :: (slashes ++ body) := by
  obtain ⟨userinfo, host, port, more, back, rfl, hserver, hat, hinner, hstop⟩ :=
    exists_parts_of_readServed hread hhost
  generalize hcut : cutTail (more ++ back) = cut
  obtain ⟨path, query, fragment⟩ := cut
  obtain ⟨hback, hquestion, hnumber, hquery⟩ := eq_of_cutTail hcut
  let s : Spelling := ⟨scheme, slashes, userinfo, host, port, path, query, fragment⟩
  have hname : s.kind = kind := hkind
  have hends (c : Char) : endsAuthority kind.implied?.isSome c = s.ends c := by
    rw [Spelling.ends, hname, SchemeKind.isSome_implied? hfile]
  simp only [hends] at hinner hstop
  have htext : s.text = scheme ++ ':' :: (slashes ++
      (credentialsText userinfo ++ (host ++ (led ':' port ++ (more ++ back))))) := by
    rw [hback]
    simp only [s, Spelling.text, Spelling.credentials, Spelling.server, Spelling.endText,
      List.append_assoc]
  have hmore : path.takeWhile (!s.ends ·) = more := by
    apply Text.takeWhile_eq_of_append_eq (p := (!s.ends ·)) hback
    · intro c hc
      rw [hinner c (by simp [hc])]
      rfl
    · intro c hc
      rw [hstop c hc]
      rfl
    · intro c hc
      rw [Spelling.ends_of_head?_endText (s := s) hc]
      rfl
  have huser : ∀ cs, userinfo = some cs → ∀ c ∈ cs, s.ends c = false := by
    rintro cs rfl c hc
    exact hinner c (List.mem_append_left _ (List.mem_append_left _ hc))
  have hhead : ∀ c, path.head? = some c → s.ends c = true ∨ c = '\\' ∧ port.isSome = true := by
    intro c hc
    have hfirst : (more ++ back).head? = some c := by
      rw [hback, List.head?_append, hc]
      rfl
    rw [List.head?_append] at hfirst
    rcases Option.or_eq_some_iff.1 hfirst with hfirst | ⟨-, hfirst⟩
    · exact .inr (hserver.rest c hfirst)
    · exact .inl (hstop c hfirst)
  refine ⟨s, ?_, htext⟩
  exact {
    shown := Spelling.isShown_iff.2 (htext ▸ hshown)
    scheme := hscheme
    slashes := hname ▸ hslashes
    userinfo := fun cs hcs => ⟨hname ▸ hfile, huser cs hcs⟩
    host_ne_nil := hserver.ne_nil
    host := ⟨hserver.spelling.1, fun c hc =>
      ⟨fun heq => hserver.spelling.2 (heq ▸ hc),
        hinner c (List.mem_append_right _ (List.mem_append_left _ hc))⟩⟩
    port := fun digits hdigits => ⟨hname ▸ hfile, hserver.digits digits hdigits⟩
    path_head := hhead
    path := ⟨hquestion, hnumber, hmore ▸ hat⟩
    query := hquery }

/-- The text of a file's URL with a host is that of a spelling. -/
theorem exists_spelling_of_readFile (hscheme : IsScheme scheme)
    (hkind : SchemeKind.ofScheme (scheme.map Text.lowerAscii) = .file)
    (hshown : ∀ c ∈ scheme ++ ':' :: body, 0x20 < c.toNat)
    (hread : readFile (scheme.map Text.lowerAscii) body = .ok url) (hhost : url.host ≠ none) :
    ∃ s : Spelling, s.IsWellFormed ∧ s.text = scheme ++ ':' :: body := by
  rw [readFile] at hread
  generalize hcut : cutTail body = cut at hread
  obtain ⟨front, query, fragment⟩ := cut
  obtain ⟨rfl, hquestion, hnumber, hquery⟩ := eq_of_cutTail hcut
  obtain ⟨⟨found, rest⟩, hfile, hread⟩ := Outcome.bind_eq_ok.1 hread
  have hfound : found ≠ none := by
    rintro rfl
    rw [← Except.ok.inj hread] at hhost
    simp [withTail] at hhost
  obtain ⟨back, h, hslashed, hne, hweb⟩ := exists_of_readFileHost hfile hfound
  obtain ⟨a, tail, rfl, ha, htail⟩ := List.map_eq_cons_iff.1 hslashed
  obtain ⟨b, back, rfl, hb, rfl⟩ := List.map_eq_cons_iff.1 htail
  have hslashes : slashed [a, b] = "//".toList := by
    rw [slashed, List.map_cons, List.map_cons, ha, hb]
    rfl
  have htake := takeWhile_slashed back
  rw [slashed] at htake
  rw [htake] at hne hweb
  have hmarks : '?' ∉ back ∧ '#' ∉ back :=
    ⟨mt (List.mem_append_right [a, b]) hquestion, mt (List.mem_append_right [a, b]) hnumber⟩
  have htext : (Spelling.ofFile scheme [a, b] back query fragment).text =
      scheme ++ ':' :: (a :: b :: back ++ (led '?' query ++ led '#' fragment)) :=
    Spelling.text_ofFile
  exact ⟨_, Spelling.isWellFormed_ofFile hscheme hkind (Spelling.isShown_iff.2 (htext ▸ hshown))
    hslashes hmarks hne hweb hquery, htext⟩

/-- Every text from which a URL with a host is read is that of a spelling. -/
theorem exists_spelling_of_read {line : String} (hline : ∀ c ∈ line.toList, 0x20 < c.toNat)
    (hread : Url.read line = .ok url) (hhost : url.host ≠ none) :
    ∃ s : Spelling, s.IsWellFormed ∧ String.ofList s.text = line := by
  suffices htext : ∃ s : Spelling, s.IsWellFormed ∧ s.text = line.toList by
    obtain ⟨s, hs, heq⟩ := htext
    exact ⟨s, hs, by rw [heq, String.ofList_toList]⟩
  rw [Url.read, clean_eq_self hline] at hread
  split at hread
  · cases hread
  · rename_i scheme rest hcut
    obtain ⟨start, htext, hscheme, rfl⟩ := eq_of_cutScheme? hcut
    rw [htext] at hline ⊢
    split at hread
    · rename_i port hkind
      have hslashes : ∀ c ∈ rest.takeWhile isSlash, c = '/' ∨ c = '\\' := by
        intro c hc
        simpa [isSlash] using List.all_eq_true.1 List.all_takeWhile c hc
      have hsplit : rest.takeWhile isSlash ++ rest.dropWhile isSlash = rest :=
        List.takeWhile_append_dropWhile
      rw [← hsplit] at hline ⊢
      exact exists_spelling_of_readServed hscheme hkind (by rintro ⟨⟩) hslashes hline hread hhost
    · rename_i hkind
      exact exists_spelling_of_readFile hscheme hkind hline hread hhost
    · rename_i hkind
      split at hread
      · have hslashes : SchemeKind.other.TakesSlashes "//".toList := rfl
        exact exists_spelling_of_readServed hscheme hkind (by rintro ⟨⟩) hslashes hline hread hhost
      · cases hread
        exact absurd rfl hhost

end Texts

end LinkSieve.Url
