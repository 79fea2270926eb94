import LinkSieve.Proofs.Link.Server
import LinkSieve.Proofs.Link.Shadowsocks
import LinkSieve.Proofs.Text.Label

/-!
# The forms of a Shadowsocks link

Credentials stand before the at sign of a link as Base64 or as plain text with an escaped password,
or they are part of a legacy payload, which is Base64 of credentials and server together. All forms
with the same parts have the same draft, so whether a link passes a screen, and as what it comes
out, does not depend on the form it is written in.

## Implementation notes

A form is a relation between the parts and the text, since it leaves the dialect of Base64 and the
characters escaped without need open. The proof needs no case split on what the password holds: the
first colon is the one after the cipher, and the last at sign the one before the server.
-/

namespace LinkSieve.Link.Shadowsocks

open Url (NamesHost)

/-- A character that stands for itself in an escaped password. -/
def isUnreserved (c : Char) : Bool :=
  c.isAlphanum || c = '-' || c = '.' || c = '_' || c = '~'

/-- The texts of credentials before an at sign: Base64 in the URL-safe alphabet with or without
padding, or plain text with everything escaped in the password that does not stand for itself. -/
inductive WritesCredentials (cipher password : List Char) : List Char → Prop where
  | encoded (padded : Bool) :
      WritesCredentials cipher password
        (Base64.encodeText ⟨true, padded⟩ (cipher ++ ':' :: password))
  | plain {escaped : List Char} :
      Text.Label.Layer password escaped → (∀ c ∈ escaped, c = '%' ∨ isUnreserved c = true) →
      WritesCredentials cipher password (cipher ++ ':' :: escaped)

/-- The lines with given credentials and a given server, and with what stands behind them: the
credentials stand before the server, or both are the payload of the legacy form. -/
inductive Writes (cipher password server tail : List Char) : List Char → Prop where
  | served {userinfo : List Char} : WritesCredentials cipher password userinfo →
      Writes cipher password server tail
        ("ss".toList ++ "://".toList ++ (userinfo ++ '@' :: server) ++ tail)
  | legacy (d : Base64.Dialect) :
      Writes cipher password server tail
        ("ss".toList ++ "://".toList ++
          Base64.encodeText d (cipher ++ ':' :: password ++ '@' :: server) ++ tail)

section Forms

variable {cipher password server tail userinfo : List Char}

theorem inUserinfo_of_isUnreserved {c : Char} (h : isUnreserved c = true) :
    Url.Escaped.inUserinfo c = false := by
  simp only [isUnreserved, Bool.or_eq_true, decide_eq_true_iff] at h
  rcases h with (((h | rfl) | rfl) | rfl) | rfl
  · exact Url.inUserinfo_of_isAlphanum h
  all_goals decide

theorem inUserinfo_of_isCipher (h : isCipher cipher = true) :
    ∀ c ∈ cipher, Url.Escaped.inUserinfo c = false := by
  intro c hc
  have hchar := List.all_eq_true.1 h c hc
  simp only [Bool.or_eq_true, decide_eq_true_iff] at hchar
  rcases hchar with ((hchar | rfl) | rfl) | rfl
  · exact Url.inUserinfo_of_isAlphanum hchar
  all_goals decide

theorem inUserinfo_of_escaped {escaped : List Char}
    (h : ∀ c ∈ escaped, c = '%' ∨ isUnreserved c = true) :
    ∀ c ∈ escaped, Url.Escaped.inUserinfo c = false := by
  intro c hc
  rcases h c hc with rfl | hkept
  · decide
  · exact inUserinfo_of_isUnreserved hkept

/-- A text that holds credentials: it does not end the authority in which it stands, and the user
info that is read from it has a name and stands for the credentials. -/
structure HoldsCredentials (cipher password userinfo : List Char) : Prop where
  inner : ∀ c ∈ userinfo, 0x20 < c.toNat ∧ Url.endsAuthority false c = false
  username_ne_nil : (Url.Authority.readUserinfo userinfo).1 ≠ []
  credentials_eq : credentials (String.ofList (Url.Authority.readUserinfo userinfo).1)
    ((Url.Authority.readUserinfo userinfo).2.map String.ofList) = .ok (cipher, password)

/-- Base64 in either alphabet holds credentials unless a slash ends it early. -/
theorem holds_encodeText {d : Base64.Dialect} (hcolon : ':' ∉ cipher)
    (hslash : '/' ∉ Base64.encodeText d (cipher ++ ':' :: password)) :
    HoldsCredentials cipher password (Base64.encodeText d (cipher ++ ':' :: password)) := by
  have hread : Url.Authority.readUserinfo (Base64.encodeText d (cipher ++ ':' :: password)) =
      (Text.Percent.encode Url.Escaped.inUserinfo
        (Base64.encodeText d (cipher ++ ':' :: password)), none) := by
    rw [Url.Authority.readUserinfo, Text.cutFirst?_eq_none (not_mem_encodeText (by decide))]
  constructor
  · have hsymbol : ∀ n < 64, ∀ urlSafe, 0x20 < (Base64.symbol urlSafe n).toNat ∧
        (Base64.symbol urlSafe n ≠ '/' →
          Url.endsAuthority false (Base64.symbol urlSafe n) = false) := by decide
    intro c hc
    have hne : c ≠ '/' := by
      rintro rfl
      exact hslash hc
    rcases Base64.mem_encode _ _ hc with ⟨n, hn, rfl⟩ | rfl
    · exact ⟨(hsymbol n hn _).1, (hsymbol n hn _).2 hne⟩
    · decide
  · rw [hread]
    exact Text.Percent.encode_ne_nil (Base64.encodeText_ne_nil _ (by simp))
  · have hunescape : unescape (String.ofList (Text.Percent.encode Url.Escaped.inUserinfo
        (Base64.encodeText d (cipher ++ ':' :: password)))) =
          .ok (Base64.encodeText d (cipher ++ ':' :: password)) :=
      unescape_encode fun hmem => absurd hmem (not_mem_encodeText (by decide))
    rw [hread]
    simp only [Option.map_none, credentials, hunescape, Outcome.ok_bind,
      Base64.decodeText?_encodeText, Text.cutFirst?_append_cons hcolon]
    rfl

/-- No symbol of the URL-safe alphabet ends an authority. -/
theorem slash_not_mem_encodeText (padded : Bool) (cs : List Char) :
    '/' ∉ Base64.encodeText ⟨true, padded⟩ cs := by
  have hsymbol : ∀ n < 64, Base64.symbol true n ≠ '/' := by decide
  intro hmem
  rcases Base64.mem_encode _ _ hmem with ⟨n, hn, heq⟩ | heq
  · exact hsymbol n hn heq
  · exact absurd heq (by decide)

theorem WritesCredentials.holds (h : WritesCredentials cipher password userinfo)
    (hfilled : cipher ≠ []) (hcipher : isCipher cipher = true) (hpassword : password ≠ []) :
    HoldsCredentials cipher password userinfo := by
  have hcolon := colon_not_mem_of_isCipher hcipher
  cases h with
  | encoded padded => exact holds_encodeText hcolon (slash_not_mem_encodeText padded _)
  | @plain escaped hlayer hkept =>
      have hne : escaped.isEmpty = false :=
        List.isEmpty_eq_false_iff.2 (mt hlayer.eq_nil_iff.1 hpassword)
      have hescaped : unescape (String.ofList escaped) = .ok password := by
        rw [unescape, String.toList_ofList, hlayer.percent_decode, Text.Utf8.decode?_encode]
      have hpercent : '%' ∉ cipher := by
        intro hmem
        exact absurd (List.all_eq_true.1 hcipher '%' hmem) (by decide)
      constructor
      · intro c hc
        rw [List.mem_append, List.mem_cons] at hc
        rcases hc with hc | rfl | hc
        · exact Url.inner_of_inUserinfo (inUserinfo_of_isCipher hcipher c hc)
        · decide
        · exact Url.inner_of_inUserinfo (inUserinfo_of_escaped hkept c hc)
      · rw [Url.Authority.readUserinfo, Text.cutFirst?_append_cons hcolon]
        exact Text.Percent.encode_ne_nil hfilled
      · rw [Url.Authority.readUserinfo, Text.cutFirst?_append_cons hcolon]
        simp only [hne, Bool.false_eq_true, if_false, Option.map_some,
          Text.Percent.encode_eq_self (inUserinfo_of_isCipher hcipher),
          Text.Percent.encode_eq_self (inUserinfo_of_escaped hkept), credentials,
          unescape_eq_self hpercent, hescaped, Outcome.ok_bind]
        rfl

/-- What starts with the mark of a query or of a fragment is a query and a fragment. -/
theorem exists_parts (h : ∀ c, tail.head? = some c → c = '?' ∨ c = '#') :
    ∃ query fragment, tail = part '?' query ++ part '#' fragment ∧ '#' ∉ part '?' query := by
  cases tail with
  | nil => exact ⟨none, none, rfl, List.not_mem_nil⟩
  | cons c rest =>
      rcases h c rfl with rfl | rfl
      · by_cases hmark : '#' ∈ rest
        · obtain ⟨query, fragment, rfl, hquery⟩ := List.eq_append_cons_of_mem hmark
          exact ⟨some query, some fragment, rfl,
            List.not_mem_cons_of_ne_of_not_mem (by decide) hquery⟩
        · refine ⟨some rest, none, ?_, List.not_mem_cons_of_ne_of_not_mem (by decide) hmark⟩
          rw [part, part, List.append_nil]
      · exact ⟨none, some rest, rfl, List.not_mem_nil⟩

theorem cutOption_part {sep : Char} {before : List Char} (h : sep ∉ before)
    (cs : Option (List Char)) : Text.cutOption sep (before ++ part sep cs) = (before, cs) := by
  cases cs with
  | none => rw [part, List.append_nil, Text.cutOption_of_not_mem h]
  | some cs => rw [part, Text.cutOption_append_cons h]

/-- A payload ends where the tail starts, and what it stands for takes its place. -/
theorem expandLegacy_append {payload expanded : List Char}
    (hpayload : '#' ∉ payload ∧ '?' ∉ payload ∧ '@' ∉ payload)
    (hexpand : expandPayload payload = .ok expanded)
    (htail : ∀ c, tail.head? = some c → c = '?' ∨ c = '#') :
    expandLegacy (String.ofList ("ss".toList ++ "://".toList ++ payload ++ tail)) =
      .ok (String.ofList ("ss".toList ++ "://".toList ++ expanded ++ tail)) := by
  obtain ⟨query, fragment, rfl, hquery⟩ := exists_parts htail
  obtain ⟨hhash, hmark, hat⟩ := hpayload
  have hrest := afterScheme?_ofList "ss".toList (payload ++ (part '?' query ++ part '#' fragment))
  rw [← List.append_assoc, ← List.append_assoc payload] at hrest
  have hbody : Text.cutOption '#' (payload ++ part '?' query ++ part '#' fragment) =
      (payload ++ part '?' query, fragment) :=
    cutOption_part (List.not_mem_append hhash hquery) fragment
  have hcontains : payload.contains '@' = false := by
    rw [List.contains_eq_mem, decide_eq_false hat]
  rw [expandLegacy, hrest]
  simp only [hbody, cutOption_part hmark query, hcontains, hexpand, Outcome.ok_bind]
  rw [if_neg Bool.false_ne_true, ← List.append_assoc]
  rfl

theorem expandPayload_encodeText (d : Base64.Dialect) (hat : '@' ∉ server) :
    expandPayload (Base64.encodeText d (cipher ++ ':' :: password ++ '@' :: server)) =
      .ok (credentialsText cipher password ++ '@' :: server) := by
  rw [expandPayload, Base64.decodeText?_encodeText]
  simp only [Text.cutLast?_append_cons _ hat]
  rfl

/-- A line with credentials before its server is in no legacy form. -/
theorem expandLegacy_served (h : ∀ c ∈ userinfo, Url.endsAuthority false c = false) :
    expandLegacy (String.ofList
        ("ss".toList ++ "://".toList ++ (userinfo ++ '@' :: server) ++ tail)) =
      .ok (String.ofList ("ss".toList ++ "://".toList ++ (userinfo ++ '@' :: server) ++ tail)) := by
  have hmark {mark : Char} (hmark : Url.endsAuthority false mark = true) : mark ∉ userinfo := by
    intro hmem
    rw [h mark hmem] at hmark
    cases hmark
  have hrest := afterScheme?_ofList "ss".toList (userinfo ++ '@' :: (server ++ tail))
  rw [List.append_assoc, List.append_assoc userinfo]
  exact expandLegacy_eq_self hrest (hmark (by decide)) (hmark (by decide))

/-- Whatever the form of a line, credentials stand before the server once it is expanded. -/
theorem Writes.exists_userinfo {line : List Char} (h : Writes cipher password server tail line)
    (hfilled : cipher ≠ []) (hcipher : isCipher cipher = true) (hpassword : password ≠ [])
    (hat : '@' ∉ server) (htail : ∀ c, tail.head? = some c → c = '?' ∨ c = '#') :
    ∃ userinfo, HoldsCredentials cipher password userinfo ∧
      expandLegacy (String.ofList line) = .ok (String.ofList
        ("ss".toList ++ "://".toList ++ (userinfo ++ '@' :: server) ++ tail)) := by
  cases h with
  | @served userinfo hwrites =>
      have hholds := hwrites.holds hfilled hcipher hpassword
      exact ⟨userinfo, hholds, expandLegacy_served fun c hc => (hholds.inner c hc).2⟩
  | legacy d =>
      refine ⟨_, WritesCredentials.holds (.encoded false) hfilled hcipher hpassword,
        expandLegacy_append ?_ (expandPayload_encodeText d hat) htail⟩
      exact ⟨not_mem_encodeText (by decide), not_mem_encodeText (by decide),
        not_mem_encodeText (by decide)⟩

/-- All forms of a link have one draft. -/
theorem exists_draft {host : List Char} {port : Nat} (hfilled : cipher ≠ [])
    (hcipher : isCipher cipher = true) (hpassword : password ≠ []) (hhost : NamesHost host)
    (hport : 1 ≤ port ∧ port ≤ 65535) (htail : ∀ c, tail.head? = some c → c = '?' ∨ c = '#') :
    ∃ draft, ∀ line,
      Writes cipher password (host ++ ':' :: Decimal.natText port) tail line →
      (String.ofList line).utf8ByteSize ≤ maxLineLength →
        Shadowsocks.draft (String.ofList line) = .ok draft := by
  obtain ⟨h, text, hreads⟩ := exists_readsAsHost hhost
  have hserver := hreads.reads.isServerText_natText hport.2
  let base := Url.servedFrom "ss" [] h (some port) tail
  let link : ShareLink := {
    scheme := "ss"
    userinfo := String.ofList (credentialsText cipher password)
    server := ⟨text, port⟩
    path := ""
    query := Query.ofUrl base
    fragment := base.fragment }
  refine ⟨⟨label base, policyParams link.query cipher, link.text⟩, fun line hline hlength => ?_⟩
  obtain ⟨userinfo, hholds, hexpand⟩ := hline.exists_userinfo hfilled hcipher hpassword
    (fun hmem => (hserver.inner '@' hmem).2.1 rfl) htail
  have hscheme : Url.IsOpaqueScheme "ss" := Protocol.isOpaqueScheme (p := .shadowsocks) (by decide)
  have hread := Url.read_servedText hscheme hholds.inner hserver fun c hc => by
    rcases htail c hc with rfl | rfl <;> decide
  have huser : (Url.servedFrom "ss" userinfo h (some port) tail).username.isEmpty = false := by
    rw [Bool.eq_false_iff]
    intro hempty
    exact hholds.username_ne_nil (String.ofList_eq_empty_iff.1 (String.isEmpty_iff.1 hempty))
  have hparts : (cipher.isEmpty || password.isEmpty) = false := by
    rw [List.isEmpty_eq_false_iff.2 hfilled, List.isEmpty_eq_false_iff.2 hpassword, Bool.or_false]
  have hcomplete : readServer title (Url.servedFrom "ss" userinfo h (some port) tail) =
      .ok ⟨text, port⟩ := by
    refine readServer_eq_ok.2 ⟨hreads.shown _ rfl, rfl, ?_, hreads.valid⟩
    simp only [Address.isPort, Bool.and_eq_true, decide_eq_true_iff]
    omega
  have hlink : Shadowsocks.link (Url.servedFrom "ss" userinfo h (some port) tail) =
      .ok (link, cipher) :=
    link_eq_ok.2 ⟨huser, password, hholds.credentials_eq, hparts, _, hcomplete, rfl⟩
  exact draft_eq_ok.2 ⟨hlength, _, _, link, cipher, hexpand, hread, rfl, hlink, rfl⟩

theorem claims_append (rest : List Char) : Protocol.shadowsocks.claims
    (String.ofList ("ss".toList ++ "://".toList ++ rest)) = true :=
  List.any_eq_true.2 ⟨"ss", List.mem_singleton_self _, hasScheme_ofList "ss" rest⟩

theorem Writes.claims {line : List Char} (h : Writes cipher password server tail line) :
    Protocol.shadowsocks.claims (String.ofList line) = true := by
  cases h with
  | served => rw [List.append_assoc]; exact claims_append _
  | legacy => rw [List.append_assoc]; exact claims_append _

/-- Two forms of one link are understood alike, and so have the same outcome under every screen. -/
theorem outcome_eq_of_writes {host first second : List Char} {port : Nat} (hfilled : cipher ≠ [])
    (hcipher : isCipher cipher = true) (hpassword : password ≠ []) (hhost : NamesHost host)
    (hport : 1 ≤ port ∧ port ≤ 65535) (htail : ∀ c, tail.head? = some c → c = '?' ∨ c = '#')
    (hfirst : Writes cipher password (host ++ ':' :: Decimal.natText port) tail first)
    (hsecond : Writes cipher password (host ++ ':' :: Decimal.natText port) tail second)
    (hfits : (String.ofList first).utf8ByteSize ≤ maxLineLength)
    (hfits' : (String.ofList second).utf8ByteSize ≤ maxLineLength) :
    (∃ draft, Shadowsocks.draft (String.ofList first) = .ok draft ∧
      Shadowsocks.draft (String.ofList second) = .ok draft) ∧
    (∀ screen, Canonicalizer.process ⟨.shadowsocks, screen⟩ (String.ofList first) =
      Canonicalizer.process ⟨.shadowsocks, screen⟩ (String.ofList second)) ∧
    ∀ rules words, (Dispatcher.ofRules rules words).process (String.ofList first) =
      (Dispatcher.ofRules rules words).process (String.ofList second) := by
  obtain ⟨draft, hdraft⟩ := exists_draft hfilled hcipher hpassword hhost hport htail
  have hone := hdraft first hfirst hfits
  have hother := hdraft second hsecond hfits'
  have hprocess (screen : Screen) :
      Canonicalizer.process ⟨.shadowsocks, screen⟩ (String.ofList first) =
        Canonicalizer.process ⟨.shadowsocks, screen⟩ (String.ofList second) := by
    rw [Canonicalizer.process, Canonicalizer.process]
    simp only [Protocol.draft, hone, hother]
  refine ⟨⟨draft, hone, hother⟩, hprocess, fun rules words => ?_⟩
  rw [Dispatcher.process_of_claims hfirst.claims, Dispatcher.process_of_claims hsecond.claims,
    checkLength_eq_ok.2 hfits, checkLength_eq_ok.2 hfits', Outcome.ok_bind, Outcome.ok_bind,
    hprocess]

end Forms

/-- The password holds an at sign, a colon, a number sign and a letter beyond ASCII. One line has it
escaped, the other one in a legacy payload. -/
theorem outcome_eq_of_writes_escaped :
    NamesHost "[::1]".toList ∧
    Writes "rc4-md5".toList "p@:#é".toList ("[::1]".toList ++ ':' :: Decimal.natText 8388)
      "?a=b#n?".toList "ss://rc4-md5:p%40%3a%23%C3%A9@[::1]:8388?a=b#n?".toList ∧
    Writes "rc4-md5".toList "p@:#é".toList ("[::1]".toList ++ ':' :: Decimal.natText 8388)
      "?a=b#n?".toList "ss://cmM0LW1kNTpwQDojw6lAWzo6MV06ODM4OA==?a=b#n?".toList ∧
    ∀ rules words,
      (Dispatcher.ofRules rules words).process
          (String.ofList "ss://rc4-md5:p%40%3a%23%C3%A9@[::1]:8388?a=b#n?".toList) =
        (Dispatcher.ofRules rules words).process
          (String.ofList "ss://cmM0LW1kNTpwQDojw6lAWzo6MV06ODM4OA==?a=b#n?".toList) := by
  have hhost : NamesHost "[::1]".toList := by
    obtain ⟨ip, hip⟩ := Option.isSome_iff_exists.1
      (show (Address.Ipv6.read? "::1".toList).isSome = true by decide)
    exact .ipv6 hip
  have hlayer : Text.Label.Layer "p@:#é".toList "p%40%3a%23%C3%A9".toList := by
    have hat : Text.Label.Escapes (String.utf8EncodeChar '@') "%40".toList :=
      .cons (.inl (by decide)) (.inl (by decide)) .nil
    have hcolon : Text.Label.Escapes (String.utf8EncodeChar ':') "%3a".toList :=
      .cons (.inl (by decide)) (.inr (by decide)) .nil
    have hhash : Text.Label.Escapes (String.utf8EncodeChar '#') "%23".toList :=
      .cons (.inl (by decide)) (.inl (by decide)) .nil
    have hletter : Text.Label.Escapes (String.utf8EncodeChar 'é') "%C3%A9".toList :=
      .cons (.inl (by decide)) (.inl (by decide))
        (.cons (.inl (by decide)) (.inl (by decide)) .nil)
    exact .keep (by decide) (by decide)
      (.escape hat (.escape hcolon (.escape hhash (.escape hletter .nil))))
  have hescaped : ∀ c ∈ "p%40%3a%23%C3%A9".toList, c = '%' ∨ isUnreserved c = true :=
    Text.forall_of_all (by decide)
  have hplain : Writes "rc4-md5".toList "p@:#é".toList
      ("[::1]".toList ++ ':' :: Decimal.natText 8388) "?a=b#n?".toList
      "ss://rc4-md5:p%40%3a%23%C3%A9@[::1]:8388?a=b#n?".toList :=
    .served (.plain hlayer hescaped)
  have hlegacy : Writes "rc4-md5".toList "p@:#é".toList
      ("[::1]".toList ++ ':' :: Decimal.natText 8388) "?a=b#n?".toList
      "ss://cmM0LW1kNTpwQDojw6lAWzo6MV06ODM4OA==?a=b#n?".toList :=
    .legacy .standard
  have htail : ∀ c, "?a=b#n?".toList.head? = some c → c = '?' ∨ c = '#' := by
    intro c hc
    exact .inl (Option.some.inj hc).symm
  exact ⟨hhost, hplain, hlegacy,
    (outcome_eq_of_writes (by decide) (by decide) (by decide) hhost (by decide) htail hplain
      hlegacy (by decide) (by decide)).2.2⟩

end LinkSieve.Link.Shadowsocks
