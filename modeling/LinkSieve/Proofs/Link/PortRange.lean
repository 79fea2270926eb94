import LinkSieve.Proofs.Link.Rejection
import LinkSieve.Proofs.Link.ShadowsocksForms

/-!
# Ports out of range

A link whose parts are in order but for its port is rejected for the port if and only if the digits
of the port denote zero or more than a port can be. Neither leading zeros nor the number of digits,
the colons of an IPv6 address or whatever stands behind the port make a difference, and neither
rules nor banned words do: a format looks at the server before it shows anything to a screen.
-/

namespace LinkSieve.Link

open Outcome (Alike Meets)
open Shadowsocks (isUnreserved)
open Url (Host NamesHost)

/-- A text of characters that stand for themselves in credentials. -/
structure IsToken (cs : List Char) : Prop where
  ne_nil : cs ≠ []
  unreserved : ∀ c ∈ cs, isUnreserved c = true

/-- The user info of a format: an identifier that is not too long, a password, a cipher and a
password in Base64, or whatever authenticates. -/
inductive IsUserinfo : Protocol → List Char → Prop where
  | vless {cs : List Char} :
      IsToken cs → (String.ofList cs).utf8ByteSize ≤ Vless.maxUuidLength → IsUserinfo .vless cs
  | trojan {cs : List Char} : IsToken cs → IsUserinfo .trojan cs
  | shadowsocks {cipher password : List Char} :
      cipher ≠ [] → ':' ∉ cipher → password ≠ [] →
        IsUserinfo .shadowsocks (Base64.encodeText .urlBare (cipher ++ ':' :: password))
  | hysteria2 {cs : List Char} : IsToken cs → IsUserinfo .hysteria2 cs

section Credentials

variable {p : Protocol} {userinfo : List Char}

theorem isToken_encodeText {text : List Char} (hne : text ≠ []) :
    IsToken (Base64.encodeText .urlBare text) := by
  refine ⟨Base64.encodeText_ne_nil _ hne, fun c hc => ?_⟩
  have hsymbol : ∀ n < 64, isUnreserved (Base64.symbol true n) = true := by decide
  have hgroups : c ∈ (Base64.groups (Text.Utf8.encode text)).map (Base64.symbol true) := hc
  obtain ⟨n, hn, rfl⟩ := List.mem_map.1 hgroups
  exact hsymbol n (Base64.lt_of_mem_groups n hn)

theorem IsUserinfo.isToken (h : IsUserinfo p userinfo) : IsToken userinfo := by
  cases h with
  | vless htoken => exact htoken
  | trojan htoken => exact htoken
  | shadowsocks => exact isToken_encodeText (by simp)
  | hysteria2 htoken => exact htoken

theorem IsToken.inner (h : IsToken userinfo) :
    ∀ c ∈ userinfo, 0x20 < c.toNat ∧ Url.endsAuthority false c = false := fun c hc =>
  Url.inner_of_inUserinfo (Shadowsocks.inUserinfo_of_isUnreserved (h.unreserved c hc))

/-- Credentials without a password of their own are read as a user name. -/
theorem IsToken.readUserinfo (h : IsToken userinfo) :
    Url.Authority.readUserinfo userinfo = (userinfo, none) := by
  have hcolon : ':' ∉ userinfo := fun hmem => absurd (h.unreserved ':' hmem) (by decide)
  have hkept : ∀ c ∈ userinfo, Url.Escaped.inUserinfo c = false :=
    fun c hc => Shadowsocks.inUserinfo_of_isUnreserved (h.unreserved c hc)
  rw [Url.Authority.readUserinfo, Text.cutFirst?_eq_none hcolon]
  simp only [Text.Percent.encode_eq_self hkept]

/-- A URL with a given scheme and a user name for its credentials. -/
structure HasUser (scheme : String) (user : List Char) (url : Url) : Prop where
  scheme : url.scheme = scheme
  username : url.username = String.ofList user
  password : url.password = none

theorem IsToken.isEmpty_ofList (h : IsToken userinfo) :
    (String.ofList userinfo).isEmpty = false := by
  rw [Bool.eq_false_iff]
  intro hempty
  exact h.ne_nil (String.ofList_eq_empty_iff.1 (String.isEmpty_iff.1 hempty))

end Credentials

/-- The format has no objection to the parameters that a range is the reason for. -/
def Draft.IsInRange (draft : Draft) : Prop :=
  Meets (fun r => r.kind ≠ .outOfRange) (fun _ => True) draft.params

/-- A line is drafted as its server is read: the draft fails with the error of the server, if any,
and else the range of nothing is left to object to. -/
def DraftsByServer (p : Protocol) (line : String) : Prop :=
  Alike (fun _ draft => draft.IsInRange) (readUrl p.title line >>= readServer p.title)
    (p.draft line)

section Formats

variable {line scheme : String} {user : List Char}

theorem alike_readUrlOf {title : String}
    (h : ∀ url, readUrl title line = .ok url → HasUser scheme user url) :
    Alike (fun a b => a = b ∧ HasUser scheme user a) (readUrl title line)
      (readUrlOf scheme title line) := by
  rw [readUrlOf]
  cases hread : readUrl title line with
  | error e => exact .error e
  | ok url =>
      have huser := h url hread
      rw [Outcome.ok_bind, if_neg (not_not_intro huser.scheme)]
      exact .ok ⟨rfl, huser⟩

/-- After the server, nothing fails. -/
theorem alike_pure {α : Type} {x : Except Rejection Address.Server} {f : Address.Server → α}
    {g : α → Draft} (h : ∀ server, (g (f server)).IsInRange) :
    Alike (fun _ draft => draft.IsInRange) x
      ((x >>= fun server => pure (f server)) >>= fun link => pure (g link)) := by
  cases x with
  | error e => exact .error e
  | ok server => exact .ok (h server)

theorem Vless.draftsByServer (htoken : IsToken user)
    (hshort : (String.ofList user).utf8ByteSize ≤ maxUuidLength)
    (hlength : line.utf8ByteSize ≤ maxLineLength)
    (h : ∀ url, readUrl title line = .ok url → HasUser "vless" user url) :
    DraftsByServer .vless line := by
  change Alike _ (readUrl title line >>= readServer title) (Vless.draft line)
  rw [Vless.draft, checkLength_eq_ok.2 hlength, Outcome.ok_bind]
  refine (alike_readUrlOf h).bind ?_
  rintro url _ ⟨rfl, huser⟩
  have hauth : ¬(url.username.isEmpty ||
      decide (maxUuidLength < url.username.utf8ByteSize)) = true := by
    rw [huser.username, htoken.isEmpty_ofList, Bool.false_or, decide_eq_true_iff]
    exact Nat.not_lt.2 hshort
  rw [link, if_neg hauth]
  exact alike_pure fun _ => trivial

theorem Trojan.draftsByServer (htoken : IsToken user) (hlength : line.utf8ByteSize ≤ maxLineLength)
    (h : ∀ url, readUrl title line = .ok url → HasUser "trojan" user url) :
    DraftsByServer .trojan line := by
  change Alike _ (readUrl title line >>= readServer title) (Trojan.draft line)
  rw [Trojan.draft, checkLength_eq_ok.2 hlength, Outcome.ok_bind]
  refine (alike_readUrlOf h).bind ?_
  rintro url _ ⟨rfl, huser⟩
  have hauth : ¬url.username.isEmpty = true := by
    rw [huser.username, htoken.isEmpty_ofList]
    exact Bool.false_ne_true
  rw [link, if_neg hauth]
  exact alike_pure fun _ => trivial

theorem Shadowsocks.isInRange_policyParams {label canonical : String} {q : Query}
    {cipher : List Char} : Draft.IsInRange ⟨label, policyParams q cipher, canonical⟩ := by
  rw [Draft.IsInRange, policyParams]
  split
  · trivial
  · exact (by decide : Rejection.badCipher.kind ≠ .outOfRange)

theorem Shadowsocks.draftsByServer {cipher password : List Char} (hfilled : cipher ≠ [])
    (hcolon : ':' ∉ cipher) (hpassword : password ≠ [])
    (hlength : line.utf8ByteSize ≤ maxLineLength)
    (hexpand : expandLegacy line = .ok line)
    (h : ∀ url, readUrl title line = .ok url →
      HasUser "ss" (Base64.encodeText .urlBare (cipher ++ ':' :: password)) url) :
    DraftsByServer .shadowsocks line := by
  change Alike _ (readUrl title line >>= readServer title) (Shadowsocks.draft line)
  rw [Shadowsocks.draft, checkLength_eq_ok.2 hlength, Outcome.ok_bind, hexpand, Outcome.ok_bind]
  refine (alike_readUrlOf h).bind ?_
  rintro url _ ⟨rfl, huser⟩
  have hauth : ¬url.username.isEmpty = true := by
    rw [huser.username, (isToken_encodeText (by simp)).isEmpty_ofList]
    exact Bool.false_ne_true
  have hcredentials : credentials url.username url.password = .ok (cipher, password) := by
    rw [huser.username, huser.password]
    exact credentials_credentialsText hcolon
  have hparts : ¬(cipher.isEmpty || password.isEmpty) = true := by
    simp [hfilled, hpassword]
  rw [link, if_neg hauth, hcredentials]
  simp only [Outcome.ok_bind, if_neg hparts]
  exact alike_pure fun _ => isInRange_policyParams

theorem Hysteria2.isInRange_checkObfuscation {label canonical : String} {params : Params} :
    Draft.IsInRange ⟨label, checkObfuscation params, canonical⟩ := by
  rw [Draft.IsInRange, checkObfuscation]
  split
  · exact (by decide : Rejection.missingObfuscation.kind ≠ .outOfRange)
  · split
    · intro h
      cases h
    · split
      · exact (by decide : Rejection.missingObfuscationPassword.kind ≠ .outOfRange)
      · trivial

theorem Hysteria2.draftsByServer (htoken : IsToken user)
    (hscheme : scheme ∈ Protocol.hysteria2.schemes) (hlength : line.utf8ByteSize ≤ maxLineLength)
    (h : ∀ url, readUrl title line = .ok url → HasUser scheme user url) :
    DraftsByServer .hysteria2 line := by
  change Alike _ (readUrl title line >>= readServer title) (Hysteria2.draft line)
  rw [Hysteria2.draft, checkLength_eq_ok.2 hlength, Outcome.ok_bind]
  refine (Alike.refl_of h).bind ?_
  rintro url _ ⟨rfl, huser⟩
  have hown : ∀ s ∈ Protocol.hysteria2.schemes,
      ¬(decide (s ≠ "hysteria2") && decide (s ≠ "hy2")) = true := by decide
  have hauth : ¬(url.username.isEmpty && url.password.isNone) = true := by
    rw [huser.username, htoken.isEmpty_ofList]
    exact Bool.false_ne_true
  rw [huser.scheme, if_neg (hown scheme hscheme), link, if_neg hauth]
  exact alike_pure fun _ => isInRange_checkObfuscation

end Formats

section Lines

variable {p : Protocol} {scheme : String} {userinfo host digits tail : List Char}

/-- In every format, a line with credentials and a server is drafted as the server is read. -/
theorem draftsByServer_servedLine {h : Host} {text : String} (hscheme : scheme ∈ p.schemes)
    (huser : IsUserinfo p userinfo)
    (hserved : IsServed scheme userinfo host digits tail h text)
    (hlength : (servedLine scheme userinfo host digits tail).utf8ByteSize ≤ maxLineLength) :
    DraftsByServer p (servedLine scheme userinfo host digits tail) := by
  have hread (title : String) : ∀ url, readUrl title (servedLine scheme userinfo host digits tail) =
      .ok url → HasUser scheme userinfo url := by
    intro url hurl
    obtain rfl := hserved.eq_of_readUrl hurl
    have hparts := huser.isToken.readUserinfo
    refine ⟨String.ofList_toList, ?_, ?_⟩
    · exact congrArg (fun parts => String.ofList parts.1) hparts
    · exact congrArg (fun parts => parts.2.map String.ofList) hparts
  cases huser with
  | vless htoken hshort =>
      obtain rfl := List.mem_singleton.1 hscheme
      exact Vless.draftsByServer htoken hshort hlength (hread _)
  | trojan htoken =>
      obtain rfl := List.mem_singleton.1 hscheme
      exact Trojan.draftsByServer htoken hlength (hread _)
  | shadowsocks hfilled hcolon hpassword =>
      obtain rfl := List.mem_singleton.1 hscheme
      exact Shadowsocks.draftsByServer hfilled hcolon hpassword hlength
        (Shadowsocks.expandLegacy_served fun c hc => (hserved.inner c hc).2) (hread _)
  | hysteria2 htoken => exact Hysteria2.draftsByServer htoken hscheme hlength (hread _)

/-- A screen objects to no range. -/
theorem Screen.meets_judge_of_isInRange {screen : Screen} {title : String} {draft : Draft}
    (h : draft.IsInRange) :
    Meets (fun r => r.kind ≠ .outOfRange) (fun _ => True) (screen.judge title draft) := by
  apply Screen.meets_judge _ _ h
  · rintro word ⟨⟩
  · rintro params v - ⟨⟩

namespace Dispatcher

variable (rules : Policy.RuleSet) (words : Policy.WordList)

/-- A line whose server is not read is rejected with its server. -/
theorem process_eq_error_of_server {line : String} {r : Rejection} (hclaims : p.claims line = true)
    (hlength : line.utf8ByteSize ≤ maxLineLength) (h : DraftsByServer p line)
    (hserver : (readUrl p.title line >>= readServer p.title) = .error r) :
    (ofRules rules words).process line = .error r := by
  rw [DraftsByServer, hserver] at h
  rw [process_of_draft hclaims hlength rfl]
  generalize p.draft line = draft at h
  cases h
  rfl

/-- A line whose server is read is rejected for no range. -/
theorem meets_process_of_server {line : String} {server : Address.Server}
    (hclaims : p.claims line = true) (hlength : line.utf8ByteSize ≤ maxLineLength)
    (h : DraftsByServer p line)
    (hserver : (readUrl p.title line >>= readServer p.title) = .ok server) :
    Meets (fun r => r.kind ≠ .outOfRange) (fun _ => True)
      ((ofRules rules words).process line) := by
  rw [DraftsByServer, hserver] at h
  rw [process_of_draft hclaims hlength rfl]
  generalize p.draft line = draft at h
  cases h with
  | ok hdraft => exact Screen.meets_judge_of_isInRange hdraft

/-- A link whose other parts are in order is rejected for its port just if the digits of the port
denote zero or more than 65535, and else no range is the reason to reject it. -/
theorem portOutOfRange_iff (hscheme : scheme ∈ p.schemes) (huser : IsUserinfo p userinfo)
    (hhost : NamesHost host) (hne : digits ≠ []) (hdigits : ∀ c ∈ digits, c.isDigit = true)
    (htail : ∀ c, tail.head? = some c → c = '/' ∨ c = '?' ∨ c = '#')
    (hlength : (servedLine scheme userinfo host digits tail).utf8ByteSize ≤ maxLineLength) :
    ((∃ r, (ofRules rules words).process (servedLine scheme userinfo host digits tail) = .error r ∧
        r.kind = .outOfRange ∧ r.reason = p.title ++ ": port out of range") ↔
      Decimal.ofDigits 10 digits = 0 ∨ 65535 < Decimal.ofDigits 10 digits) ∧
    ∀ r, (ofRules rules words).process (servedLine scheme userinfo host digits tail) = .error r →
      r.kind = .outOfRange →
        Decimal.ofDigits 10 digits = 0 ∨ 65535 < Decimal.ofDigits 10 digits := by
  obtain ⟨h, text, hnamed⟩ := exists_readsAsHost hhost
  have hserved : IsServed scheme userinfo host digits tail h text := by
    refine ⟨Protocol.isOpaqueScheme hscheme, huser.isToken.inner, hnamed, hne, ?_, ?_⟩
    · intro c hc
      rw [Decimal.isDigit_ten]
      exact hdigits c hc
    · intro c hc
      rcases htail c hc with rfl | rfl | rfl <;> decide
  have hclaims : p.claims (servedLine scheme userinfo host digits tail) = true := by
    refine List.any_eq_true.2 ⟨scheme, hscheme, ?_⟩
    rw [servedLine, List.append_assoc]
    exact hasScheme_ofList scheme _
  have hdrafts := draftsByServer_servedLine hscheme huser hserved hlength
  have hserver := hserved.server_eq p.title
  have honly : ∀ r,
      (ofRules rules words).process (servedLine scheme userinfo host digits tail) = .error r →
        r.kind = .outOfRange →
          Decimal.ofDigits 10 digits = 0 ∨ 65535 < Decimal.ofDigits 10 digits := by
    intro r hr hkind
    apply Classical.byContradiction
    intro hin
    rw [if_neg hin] at hserver
    have hmeets := meets_process_of_server rules words hclaims hlength hdrafts hserver
    rw [hr] at hmeets
    exact hmeets hkind
  refine ⟨⟨?_, ?_⟩, honly⟩
  · rintro ⟨r, hr, hkind, -⟩
    exact honly r hr hkind
  · intro hout
    rw [if_pos hout] at hserver
    exact ⟨_, process_eq_error_of_server rules words hclaims hlength hdrafts hserver, rfl, rfl⟩

/-- Behind an IPv6 address, more digits than a machine word has room for are out of range, and zeros
in front are not, whatever colons and at signs the tail holds. -/
theorem portOutOfRange_iff_zeros :
    (∃ r, (ofRules .empty .empty).process
        (servedLine "hy2" "a~b".toList "[::1]".toList "99999999999999999999".toList
          "/:1@c.d:2".toList) = .error r ∧
      r.kind = .outOfRange ∧ r.reason = Hysteria2.title ++ ": port out of range") ∧
    ∀ r, (ofRules .empty .empty).process
        (servedLine "ss" (Base64.encodeText .urlBare ("rc4".toList ++ ':' :: "p".toList))
          "a.b".toList "00000000443".toList "?x=:0#y".toList) = .error r →
      r.kind ≠ .outOfRange := by
  have hipv6 : NamesHost "[::1]".toList := by
    obtain ⟨ip, hip⟩ := Option.isSome_iff_exists.1
      (show (Address.Ipv6.read? "::1".toList).isSome = true by decide)
    exact .ipv6 hip
  have htoken : IsToken "a~b".toList := ⟨by decide, Text.forall_of_all (by decide)⟩
  have huser : IsUserinfo .shadowsocks
      (Base64.encodeText .urlBare ("rc4".toList ++ ':' :: "p".toList)) :=
    .shadowsocks (by decide) (by decide) (by decide)
  constructor
  · have htail : ∀ c, "/:1@c.d:2".toList.head? = some c → c = '/' ∨ c = '?' ∨ c = '#' :=
      fun c hc => .inl (Option.some.inj hc).symm
    exact (portOutOfRange_iff .empty .empty (by decide) (.hysteria2 htoken) hipv6 (by decide)
      (Text.forall_of_all (by decide)) htail (by decide)).1.2 (.inr (by decide))
  · have htail : ∀ c, "?x=:0#y".toList.head? = some c → c = '/' ∨ c = '?' ∨ c = '#' :=
      fun c hc => .inr (.inl (Option.some.inj hc).symm)
    intro r hr hkind
    exact absurd ((portOutOfRange_iff .empty .empty (by decide) huser (.name (by decide))
      (by decide) (Text.forall_of_all (by decide)) htail (by decide)).2 r hr hkind) (by decide)

end Dispatcher

end Lines

end LinkSieve.Link
