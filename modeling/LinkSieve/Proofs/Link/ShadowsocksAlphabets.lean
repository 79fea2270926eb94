import LinkSieve.Proofs.Link.Rejection
import LinkSieve.Proofs.Link.ShadowsocksForms

/-!
# The alphabets of Shadowsocks credentials

Credentials before an at sign are Base64 in either alphabet, padded or not. What the alphabets do
not share are the symbols for two numbers. A plus sign passes through the URL as it is, and an
equals sign is escaped there and taken back; but a slash ends the authority, so the at sign behind
it is part of a path, and the link has no user info. Hence the standard alphabet is as good as the
URL-safe one exactly if no six bits in a row are all ones.

## Implementation notes

The server need not be one: any text is allowed for it that neither ends the authority nor holds an
at sign. What is read of it does not depend on the credentials, whether it is read or not.
-/

namespace LinkSieve.Link.Shadowsocks

open Outcome (Alike Meets)

/-- A line with a text before its server that is to hold credentials. -/
def textWith (server tail userinfo : List Char) : String :=
  String.ofList ("ss".toList ++ "://".toList ++ (userinfo ++ '@' :: server) ++ tail)

theorem textWith_eq (server tail userinfo : List Char) : textWith server tail userinfo =
    String.ofList ("ss".toList ++ "://".toList ++ (userinfo ++ '@' :: server) ++ tail) := rfl

/-- A line with the Base64 of credentials before its server. -/
def encodedLine (d : Base64.Dialect) (cipher password server tail : List Char) : String :=
  textWith server tail (Base64.encodeText d (cipher ++ ':' :: password))

/-- A slash stands in the standard Base64 of bytes just if six bits of a group are all ones. -/
theorem slash_mem_encodeText_iff (padded : Bool) (cs : List Char) :
    '/' ∈ Base64.encodeText ⟨false, padded⟩ cs ↔ 63 ∈ Base64.groups (Text.Utf8.encode cs) := by
  have hsymbol : ∀ n < 64, Base64.symbol false n = '/' ↔ n = 63 := by decide
  rw [Base64.encodeText, Base64.encode_eq, List.mem_append, List.mem_map]
  constructor
  · rintro (⟨n, hn, heq⟩ | hpad)
    · exact (hsymbol n (Base64.lt_of_mem_groups n hn)).1 heq ▸ hn
    · exact absurd (List.eq_of_mem_replicate hpad) (by decide)
  · intro hmem
    exact .inl ⟨63, hmem, rfl⟩

/-- A URL has given credentials. -/
structure HasCredentials (cipher password : List Char) (url : Url) : Prop where
  scheme : url.scheme = "ss"
  filled : url.username.isEmpty = false
  credentials_eq : credentials url.username url.password = .ok (cipher, password)

/-- Two URLs with the same credentials, which may be written differently, agree in all else that is
read from them. -/
structure Agree (cipher password : List Char) (url other : Url) : Prop where
  left : HasCredentials cipher password url
  right : HasCredentials cipher password other
  host : other.host = url.host
  port : other.port = url.port
  query : other.query = url.query
  fragment : other.fragment = url.fragment

/-- The draft of a link that is read as a URL. -/
def draftOf (url : Url) : Except Rejection Draft := do
  let (link, cipher) ← link url
  return { label := label url, params := policyParams link.query cipher, canonical := link.text }

theorem draft_eq (line : String) :
    Shadowsocks.draft line = checkLength line >>= fun _ => expandLegacy line >>= fun text =>
      readUrlOf "ss" title text >>= draftOf := rfl

section Server

variable {cipher password server tail userinfo other : List Char}

theorem Agree.draftOf_eq {url url' : Url} (h : Agree cipher password url url') :
    draftOf url = draftOf url' := by
  have hhost : hostText? url' = hostText? url := by rw [hostText?, hostText?, h.host]
  have hserver : readServer title url' = readServer title url := by
    rw [readServer, readServer, hhost, h.port]
  have hquery : Query.ofUrl url' = Query.ofUrl url := by
    rw [Query.ofUrl, Query.ofUrl, Url.queryPairs, Url.queryPairs, h.query]
  have hlink : Shadowsocks.link url' = Shadowsocks.link url := by
    rw [Shadowsocks.link, Shadowsocks.link, h.left.filled, h.right.filled, h.left.credentials_eq,
      h.right.credentials_eq, hserver, hquery, h.fragment]
  rw [draftOf, draftOf, hlink, label, label, h.fragment]

section Readings

variable (hserver : ∀ c ∈ server, 0x20 < c.toNat ∧ c ≠ '@' ∧ Url.endsAuthority false c = false)
  (htail : ∀ c, tail.head? = some c → c = '?' ∨ c = '#')

include hserver htail

/-- Whatever holds the credentials, the server is read alike behind it. -/
theorem alike_read (h : HoldsCredentials cipher password userinfo)
    (h' : HoldsCredentials cipher password other) :
    Alike (Agree cipher password) (Url.read (textWith server tail userinfo))
      (Url.read (textWith server tail other)) := by
  have hscheme : Url.IsOpaqueScheme "ss" := Protocol.isOpaqueScheme (p := .shadowsocks) (by decide)
  have hat : '@' ∉ server := fun hmem => (hserver '@' hmem).2.1 rfl
  have hend : ∀ c, tail.head? = some c → Url.endsAuthority false c = true ∧ 0x20 < c.toNat := by
    intro c hc
    rcases htail c hc with rfl | rfl <;> decide
  have hread {u : List Char} (hu : HoldsCredentials cipher password u) :=
    Url.read_authorityText hscheme (Url.inner_append hu.inner hserver) hend
  have hfilled {u : List Char} (hu : HoldsCredentials cipher password u) :
      (String.ofList (Url.Authority.readUserinfo u).1).isEmpty = false := by
    rw [Bool.eq_false_iff]
    intro hempty
    exact hu.username_ne_nil (String.ofList_eq_empty_iff.1 (String.isEmpty_iff.1 hempty))
  rw [textWith_eq, textWith_eq, hread h, hread h', Url.Authority.read_named hat h.username_ne_nil,
    Url.Authority.read_named hat h'.username_ne_nil]
  cases Url.Authority.readServer false none server with
  | error e => exact .error e
  | ok found =>
      obtain ⟨host, port, more⟩ := found
      cases host with
      | none => exact .error Url.ParseError.emptyHost
      | some host =>
          exact .ok ⟨⟨rfl, hfilled h, h.credentials_eq⟩, ⟨rfl, hfilled h', h'.credentials_eq⟩,
            rfl, rfl, rfl, rfl⟩

/-- What stands before the server has no say in whether its port is too great. -/
theorem portOverflows_textWith (h : HoldsCredentials cipher password userinfo)
    (h' : HoldsCredentials cipher password other) :
    portOverflows (textWith server tail userinfo).toList =
      portOverflows (textWith server tail other).toList := by
  have hat : '@' ∉ server := fun hmem => (hserver '@' hmem).2.1 rfl
  have hends (c : Char) : (decide (c = '/') || decide (c = '?') || decide (c = '#')) =
      Url.endsAuthority false c := by
    simp [Url.endsAuthority]
  have hend : ∀ c, tail.head? = some c → Url.endsAuthority false c = true := by
    intro c hc
    rcases htail c hc with rfl | rfl <;> decide
  have hcut (u : List Char) : portOverflows.cutSlashes (textWith server tail u).toList =
      some (u ++ '@' :: server ++ tail) := by
    rw [textWith_eq, String.toList_ofList, List.append_assoc, List.append_assoc]
    exact cutSlashes_append (by decide) _
  have hauthority {u : List Char} (hu : HoldsCredentials cipher password u) :=
    (Url.takeWhile_authority (Url.inner_append hu.inner hserver) hend).1
  rw [portOverflows, portOverflows, hcut, hcut]
  simp only [hends, hauthority h, hauthority h', Text.cutLast?_append_cons _ hat]

theorem alike_readUrlOf_textWith (h : HoldsCredentials cipher password userinfo)
    (h' : HoldsCredentials cipher password other) :
    Alike (Agree cipher password) (readUrlOf "ss" title (textWith server tail userinfo))
      (readUrlOf "ss" title (textWith server tail other)) := by
  have halike := alike_read hserver htail h h'
  rw [readUrlOf, readUrlOf, readUrl, readUrl, portOverflows_textWith hserver htail h h']
  generalize Url.read (textWith server tail userinfo) = left at halike
  generalize Url.read (textWith server tail other) = right at halike
  cases halike with
  | error e => exact .error _
  | ok hagree =>
      simp only [Outcome.ok_bind]
      rw [if_neg (not_not_intro hagree.left.scheme), if_neg (not_not_intro hagree.right.scheme)]
      exact .ok hagree

/-- Lines that hold the same credentials before the same text have the same draft, if any. -/
theorem draft_eq_of_holds (h : HoldsCredentials cipher password userinfo)
    (h' : HoldsCredentials cipher password other)
    (hfits : (textWith server tail userinfo).utf8ByteSize ≤ maxLineLength)
    (hfits' : (textWith server tail other).utf8ByteSize ≤ maxLineLength) :
    Shadowsocks.draft (textWith server tail userinfo) =
      Shadowsocks.draft (textWith server tail other) := by
  have hexpand {u : List Char} (hu : HoldsCredentials cipher password u) :
      expandLegacy (textWith server tail u) = .ok (textWith server tail u) :=
    expandLegacy_served fun c hc => (hu.inner c hc).2
  have halike := alike_readUrlOf_textWith hserver htail h h'
  rw [draft_eq, draft_eq, checkLength_eq_ok.2 hfits, checkLength_eq_ok.2 hfits', Outcome.ok_bind,
    Outcome.ok_bind, hexpand h, hexpand h', Outcome.ok_bind, Outcome.ok_bind]
  generalize readUrlOf "ss" title (textWith server tail userinfo) = left at halike
  generalize readUrlOf "ss" title (textWith server tail other) = right at halike
  cases halike with
  | error e => rfl
  | ok hagree => exact hagree.draftOf_eq

end Readings

/-- No symbol of Base64 but the slash means anything in an authority. -/
theorem plain_of_mem_encodeText {d : Base64.Dialect} {cs : List Char} {c : Char}
    (hmem : c ∈ Base64.encodeText d cs) (hne : c ≠ '/') :
    0x20 < c.toNat ∧ Url.endsAuthority false c = false ∧ Url.Host.isForbidden c = false := by
  have hsymbol : ∀ n < 64, ∀ urlSafe, Base64.symbol urlSafe n ≠ '/' →
      0x20 < (Base64.symbol urlSafe n).toNat ∧
        Url.endsAuthority false (Base64.symbol urlSafe n) = false ∧
        Url.Host.isForbidden (Base64.symbol urlSafe n) = false := by decide
  rcases Base64.mem_encode _ _ hmem with ⟨n, hn, rfl⟩ | rfl
  · exact hsymbol n hn _ hne
  · decide

/-- What stands before the first slash of a link is all of its authority. Without an at sign it
names no user. -/
theorem exists_readUrlOf_of_slash {front behind : List Char}
    (h : ∀ c ∈ front,
      0x20 < c.toNat ∧ Url.endsAuthority false c = false ∧ Url.Host.isForbidden c = false) :
    ∃ url, readUrlOf "ss" title
        (String.ofList ("ss".toList ++ "://".toList ++ front ++ '/' :: behind)) = .ok url ∧
      url.username.isEmpty = true := by
  have hscheme : Url.IsOpaqueScheme "ss" := Protocol.isOpaqueScheme (p := .shadowsocks) (by decide)
  have hbehind : ∀ c, ('/' :: behind).head? = some c →
      Url.endsAuthority false c = true ∧ 0x20 < c.toNat := by
    intro c hc
    obtain rfl := Option.some.inj hc
    decide
  have hread := Url.read_authorityText hscheme (fun c hc => ⟨(h c hc).1, (h c hc).2.1⟩) hbehind
  obtain ⟨host, hhost⟩ := Url.Authority.exists_read (fun c hc => (h c hc).2.2)
    (Url.cleanEnd ('/' :: behind)).isEmpty
  rw [hhost, Outcome.ok_bind] at hread
  rw [readUrlOf, readUrl, hread]
  exact ⟨_, rfl, rfl⟩

/-- Behind a slash nothing is user info. -/
theorem draft_of_slash {d : Base64.Dialect}
    (hslash : '/' ∈ Base64.encodeText d (cipher ++ ':' :: password))
    (hfits : (encodedLine d cipher password server tail).utf8ByteSize ≤ maxLineLength) :
    Shadowsocks.draft (encodedLine d cipher password server tail) = .error .missingUserInfo := by
  obtain ⟨front, back, hcut, hfront⟩ := List.eq_append_cons_of_mem hslash
  have hplain : ∀ c ∈ front, 0x20 < c.toNat ∧ Url.endsAuthority false c = false ∧
      Url.Host.isForbidden c = false := by
    intro c hc
    refine plain_of_mem_encodeText (hcut ▸ List.mem_append_left _ hc) ?_
    rintro rfl
    exact hfront hc
  have hexpand : expandLegacy (encodedLine d cipher password server tail) =
      .ok (encodedLine d cipher password server tail) := by
    have hrest := afterScheme?_ofList "ss".toList
      (Base64.encodeText d (cipher ++ ':' :: password) ++ '@' :: (server ++ tail))
    rw [encodedLine, textWith_eq, List.append_assoc, List.append_assoc (Base64.encodeText d _)]
    exact expandLegacy_eq_self hrest (not_mem_encodeText (by decide))
      (not_mem_encodeText (by decide))
  have hline : encodedLine d cipher password server tail =
      String.ofList ("ss".toList ++ "://".toList ++ front ++
        '/' :: (back ++ '@' :: (server ++ tail))) := by
    rw [encodedLine, textWith_eq, hcut]
    simp only [List.append_assoc, List.cons_append]
  obtain ⟨url, hurl, hempty⟩ := exists_readUrlOf_of_slash hplain
  rw [draft_eq, checkLength_eq_ok.2 hfits, Outcome.ok_bind, hexpand, Outcome.ok_bind, hline, hurl,
    Outcome.ok_bind, draftOf, Shadowsocks.link, hempty]
  rfl

theorem claims_encodedLine (d : Base64.Dialect) :
    Protocol.shadowsocks.claims (encodedLine d cipher password server tail) = true := by
  rw [encodedLine, textWith_eq, List.append_assoc]
  exact claims_append _

/-- A text that is no URL is not rejected for missing user info. -/
theorem meets_readUrlOf (line : String) :
    Meets (· ≠ .missingUserInfo) (fun _ => True) (readUrlOf "ss" title line) := by
  rw [readUrlOf, readUrl]
  cases Url.read line with
  | ok url =>
      rw [Outcome.ok_bind]
      split
      · intro h
        cases h
      · trivial
  | error e =>
      change (if portOverflows line.toList then Rejection.portOutOfRange title
        else .badUrl title) ≠ .missingUserInfo
      split
      · intro h
        cases h
      · intro h
        cases h

/-- A server is not the reason to miss the user info. -/
theorem meets_readServer (url : Url) :
    Meets (· ≠ .missingUserInfo) (fun _ => True) (readServer title url) := by
  rw [readServer]
  split
  · intro h
    cases h
  split
  · intro h
    cases h
  split
  · intro h
    cases h
  split
  · intro h
    cases h
  · trivial

/-- A URL with credentials is not rejected for missing user info. -/
theorem meets_draftOf {url : Url} (hcipher : isCipher cipher = true) (hfilled : cipher ≠ [])
    (hpassword : password ≠ []) (h : HasCredentials cipher password url) :
    Meets (· ≠ .missingUserInfo)
      (fun draft => Meets (· ≠ .missingUserInfo) (fun _ => True) draft.params) (draftOf url) := by
  have hparts : (cipher.isEmpty || password.isEmpty) = false := by
    rw [List.isEmpty_eq_false_iff.2 hfilled, List.isEmpty_eq_false_iff.2 hpassword, Bool.or_false]
  rw [draftOf, Shadowsocks.link, h.filled, h.credentials_eq]
  simp only [Bool.false_eq_true, if_false, Outcome.ok_bind, hparts]
  refine Meets.bind (Q := fun found => found.2 = cipher) ?_ ?_
  · refine (meets_readServer url).bind fun server _ => ?_
    exact Eq.refl cipher
  rintro ⟨link, found⟩ rfl
  have hparams : policyParams link.query found =
      .ok (link.query.first.insert "method" (String.ofList found)) := if_pos hcipher
  change Meets _ _ (policyParams link.query found)
  rw [hparams]
  trivial

/-- A line that holds credentials before its server is not rejected for missing user info. -/
theorem process_ne_missingUserInfo (rules : Policy.RuleSet) (words : Policy.WordList)
    (hfilled : cipher ≠ []) (hcipher : isCipher cipher = true) (hpassword : password ≠ [])
    (hserver : ∀ c ∈ server, 0x20 < c.toNat ∧ c ≠ '@' ∧ Url.endsAuthority false c = false)
    (htail : ∀ c, tail.head? = some c → c = '?' ∨ c = '#')
    (h : HoldsCredentials cipher password userinfo)
    (hclaims : Protocol.shadowsocks.claims (textWith server tail userinfo) = true)
    (hfits : (textWith server tail userinfo).utf8ByteSize ≤ maxLineLength) :
    (Dispatcher.ofRules rules words).process (textWith server tail userinfo) ≠
      .error .missingUserInfo := by
  have hexpand : expandLegacy (textWith server tail userinfo) =
      .ok (textWith server tail userinfo) := expandLegacy_served fun c hc => (h.inner c hc).2
  have hread : Meets (· ≠ .missingUserInfo) (HasCredentials cipher password)
      (readUrlOf "ss" title (textWith server tail userinfo)) := by
    have hmeets := meets_readUrlOf (textWith server tail userinfo)
    have halike := alike_readUrlOf_textWith hserver htail h h
    generalize readUrlOf "ss" title (textWith server tail userinfo) = found at hmeets halike
    cases halike with
    | error e => exact hmeets
    | ok hagree => exact hagree.left
  have hdraft : Meets (· ≠ .missingUserInfo)
      (fun draft => Meets (· ≠ .missingUserInfo) (fun _ => True) draft.params)
      (Shadowsocks.draft (textWith server tail userinfo)) := by
    rw [draft_eq, checkLength_eq_ok.2 hfits, Outcome.ok_bind, hexpand, Outcome.ok_bind]
    exact hread.bind fun url hurl => meets_draftOf hcipher hfilled hpassword hurl
  have hprocess : Meets (· ≠ .missingUserInfo) (fun _ => True)
      ((Dispatcher.ofRules rules words).process (textWith server tail userinfo)) := by
    rw [Dispatcher.process_of_draft hclaims hfits rfl]
    exact hdraft.bind fun draft hparams =>
      Screen.meets_judge (fun _ => nofun) (fun _ _ _ => nofun) hparams
  intro herror
  rw [herror] at hprocess
  exact hprocess rfl

/-- The lines with the standard and the URL-safe Base64 of credentials have the same outcome just
if there is no slash in the standard one, which is to say no group of six ones in the bits of the
credentials. With a slash the line is rejected for missing user info, as the other line never is. -/
theorem process_eq_iff_slash_not_mem (hfilled : cipher ≠ []) (hcipher : isCipher cipher = true)
    (hpassword : password ≠ [])
    (hserver : ∀ c ∈ server, 0x20 < c.toNat ∧ c ≠ '@' ∧ Url.endsAuthority false c = false)
    (htail : ∀ c, tail.head? = some c → c = '?' ∨ c = '#') (padded padded' : Bool)
    (hfits : (encodedLine ⟨false, padded⟩ cipher password server tail).utf8ByteSize ≤ maxLineLength)
    (hfits' : (encodedLine ⟨true, padded'⟩ cipher password server tail).utf8ByteSize ≤
      maxLineLength)
    (rules : Policy.RuleSet) (words : Policy.WordList) :
    ((Dispatcher.ofRules rules words).process
          (encodedLine ⟨false, padded⟩ cipher password server tail) =
        (Dispatcher.ofRules rules words).process
          (encodedLine ⟨true, padded'⟩ cipher password server tail) ↔
      '/' ∉ Base64.encodeText ⟨false, padded⟩ (cipher ++ ':' :: password)) ∧
    ('/' ∈ Base64.encodeText ⟨false, padded⟩ (cipher ++ ':' :: password) ↔
      63 ∈ Base64.groups (Text.Utf8.encode (cipher ++ ':' :: password))) ∧
    ('/' ∈ Base64.encodeText ⟨false, padded⟩ (cipher ++ ':' :: password) →
      (Dispatcher.ofRules rules words).process
        (encodedLine ⟨false, padded⟩ cipher password server tail) = .error .missingUserInfo) := by
  have hcolon := colon_not_mem_of_isCipher hcipher
  have hsafe := holds_encodeText hcolon
    (slash_not_mem_encodeText padded' (cipher ++ ':' :: password))
  have hmissing (hslash : '/' ∈ Base64.encodeText ⟨false, padded⟩ (cipher ++ ':' :: password)) :
      (Dispatcher.ofRules rules words).process
        (encodedLine ⟨false, padded⟩ cipher password server tail) = .error .missingUserInfo :=
    Dispatcher.process_of_draft (claims_encodedLine _) hfits (draft_of_slash hslash hfits)
  refine ⟨⟨?_, ?_⟩, slash_mem_encodeText_iff padded _, hmissing⟩
  · intro hsame hslash
    exact process_ne_missingUserInfo rules words hfilled hcipher hpassword hserver htail hsafe
      (claims_encodedLine _) hfits' (hsame.symm.trans (hmissing hslash))
  · intro hslash
    have hdraft :=
      draft_eq_of_holds hserver htail (holds_encodeText hcolon hslash) hsafe hfits hfits'
    rw [Dispatcher.process_of_draft (claims_encodedLine _) hfits hdraft,
      Dispatcher.process_of_draft (claims_encodedLine _) hfits' rfl]
    rfl

end Server

/-- A password whose standard Base64 has a plus sign and padding. -/
theorem process_eq_iff_slash_not_mem_plus :
    encodedLine ⟨false, true⟩ "rc4-md5".toList "~>".toList "a.b:1".toList "?x=y".toList =
        "ss://cmM0LW1kNTp+Pg==@a.b:1?x=y" ∧
      encodedLine ⟨true, false⟩ "rc4-md5".toList "~>".toList "a.b:1".toList "?x=y".toList =
        "ss://cmM0LW1kNTp-Pg@a.b:1?x=y" ∧
      ∀ rules words,
        (Dispatcher.ofRules rules words).process
            (encodedLine ⟨false, true⟩ "rc4-md5".toList "~>".toList "a.b:1".toList "?x=y".toList) =
          (Dispatcher.ofRules rules words).process
            (encodedLine ⟨true, false⟩ "rc4-md5".toList "~>".toList "a.b:1".toList
              "?x=y".toList) := by
  have hserver : ∀ c ∈ "a.b:1".toList,
      0x20 < c.toNat ∧ c ≠ '@' ∧ Url.endsAuthority false c = false :=
    Text.forall_of_all (by decide)
  have htail : ∀ c, "?x=y".toList.head? = some c → c = '?' ∨ c = '#' := by
    intro c hc
    exact .inl (Option.some.inj hc).symm
  refine ⟨by decide, by decide, fun rules words => ?_⟩
  exact (process_eq_iff_slash_not_mem (by decide) (by decide) (by decide) hserver htail true false
    (by decide) (by decide) rules words).1.2 (by decide)

/-- A password whose standard Base64 has a slash: the line is rejected although the one with the
URL-safe Base64 is accepted. -/
theorem process_ends_at_slash :
    encodedLine ⟨false, true⟩ "rc4-md5".toList "?".toList "a.b:1".toList [] =
        "ss://cmM0LW1kNTo/@a.b:1" ∧
      encodedLine ⟨true, true⟩ "rc4-md5".toList "?".toList "a.b:1".toList [] =
        "ss://cmM0LW1kNTo_@a.b:1" ∧
      (Dispatcher.ofRules .empty .empty).process "ss://cmM0LW1kNTo/@a.b:1" =
        .error .missingUserInfo ∧
      (Dispatcher.ofRules .empty .empty).process "ss://cmM0LW1kNTo_@a.b:1" =
        .ok "ss://cmM0LW1kNTo_@a.b:1" :=
  ⟨by decide, by decide, by rfl, by rfl⟩

end LinkSieve.Link.Shadowsocks
