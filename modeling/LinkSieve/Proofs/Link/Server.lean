import LinkSieve.Proofs.Link.ShareLink
import LinkSieve.Proofs.Url.Server

/-!
# Servers of links

A text that names a host is read as one by a link, whatever port stands behind it. The port decides
on its own: in whatever way its digits are written, the link has the server that they give, or it is
rejected because they denote zero or more than a port can be. The first is seen when the link has
been read as a URL. The second keeps it from being read as one, and is found in the text itself, in
which the port is looked for in another way than by the reading of URLs.
-/

namespace LinkSieve.Link

open Url (Host IsHostBeforePort IsOpaqueScheme NamesHost)

/-- A text that is read as a host before any port, with the text by which the host is known. -/
structure ReadsAsHost (cs : List Char) (host : Host) (text : String) : Prop where
  reads : IsHostBeforePort cs host
  closed : cs.head? = some '[' → cs.getLast? = some ']'
  shown : ∀ url : Url, url.host = some host → hostText? url = some text
  valid : Address.isHost text.toList = true

theorem readsAsHost_name {cs : List Char} (hne : cs ≠ []) (hchars : ∀ c ∈ cs, Address.InName c)
    (hvalid : Address.isHost cs = true) :
    ReadsAsHost cs (.name (String.ofList cs)) (String.ofList cs) := by
  refine ⟨Url.isHostBeforePort_of_inName hne hchars, fun hhead => ?_, fun url hurl => ?_, ?_⟩
  · exact absurd (hchars '[' (List.mem_of_mem_head? hhead)) (by unfold Address.InName; decide)
  · have htext : (String.ofList cs).isEmpty = false := by
      rw [Bool.eq_false_iff]
      intro hempty
      exact hne (String.ofList_eq_empty_iff.1 (String.isEmpty_iff.1 hempty))
    simp only [hostText?, hurl, htext, Bool.false_eq_true, if_false]
  · rwa [String.toList_ofList]

theorem readsAsHost_ipv6 {cs : List Char} {ip : Address.Ipv6}
    (hip : Address.Ipv6.read? cs = some ip) :
    ReadsAsHost ('[' :: (cs ++ [']'])) (.ipv6 ip) (String.ofList ip.text) := by
  refine ⟨Url.isHostBeforePort_of_read?_ipv6 hip, fun _ => ?_, fun url hurl => ?_, ?_⟩
  · rw [← List.cons_append, List.getLast?_concat]
  · simp only [hostText?, hurl]
  · rw [String.toList_ofList]
    refine Address.isHost_of_isIpAddress ?_ ?_
    · exact fun hmem => absurd (Address.Ipv6.mem_text hmem) (by decide)
    · rw [Address.isIpAddress, Address.Ipv6.read?_text, Option.isSome_some, Bool.or_true]

theorem exists_readsAsHost {cs : List Char} (h : NamesHost cs) :
    ∃ host text, ReadsAsHost cs host text := by
  cases h with
  | name hdomain =>
      refine ⟨_, _, readsAsHost_name ?_ (Address.inName_of_isDomainName_lower hdomain) ?_⟩
      · rintro rfl
        cases hdomain
      · rw [Address.isHost, hdomain, Bool.or_true]
  | ipv4 hip =>
      have hchars : ∀ c ∈ cs, Address.InName c :=
        fun c hc => (Address.Ipv4.mem_of_read? hip c hc).imp id .inr
      refine ⟨_, _, readsAsHost_name ?_ hchars (Address.isHost_of_isIpAddress ?_ ?_)⟩
      · rintro rfl
        cases hip
      · exact fun hmem => absurd (hchars '[' hmem) (by unfold Address.InName; decide)
      · rw [Address.isIpAddress, hip]
        rfl
  | ipv6 hip => exact ⟨_, _, readsAsHost_ipv6 hip⟩

section Port

variable {scheme title text : String} {userinfo cs digits tail : List Char} {host : Host}

/-- A link with given credentials, host and port, and with what stands behind them. -/
def servedLine (scheme : String) (userinfo cs digits tail : List Char) : String :=
  String.ofList
    (scheme.toList ++ "://".toList ++ (userinfo ++ '@' :: (cs ++ ':' :: digits)) ++ tail)

/-- The parts of such a link: none of them ends before the mark behind it. -/
structure IsServed (scheme : String) (userinfo cs digits tail : List Char) (host : Host)
    (text : String) : Prop where
  schemed : IsOpaqueScheme scheme
  inner : ∀ c ∈ userinfo, 0x20 < c.toNat ∧ Url.endsAuthority false c = false
  named : ReadsAsHost cs host text
  ne_nil : digits ≠ []
  isDigit : ∀ c ∈ digits, Decimal.isDigit 10 c = true
  ends : ∀ c, tail.head? = some c → Url.endsAuthority false c = true ∧ 0x20 < c.toNat

namespace IsServed

variable (h : IsServed scheme userinfo cs digits tail host text)

include h

theorem server_inner : ∀ c ∈ cs ++ ':' :: digits,
    0x20 < c.toNat ∧ c ≠ '@' ∧ Url.endsAuthority false c = false :=
  h.named.reads.inner_append h.isDigit

theorem at_not_mem : '@' ∉ cs ++ ':' :: digits :=
  fun hmem => (h.server_inner '@' hmem).2.1 rfl

/-- A port that is not too great is read with the URL. -/
theorem read_eq_ok (hfits : Decimal.ofDigits 10 digits ≤ 65535) :
    Url.read (servedLine scheme userinfo cs digits tail) =
      .ok (Url.servedFrom scheme userinfo host (some (Decimal.ofDigits 10 digits)) tail) :=
  Url.read_servedText h.schemed h.inner
    (h.named.reads.isServerText h.ne_nil h.isDigit hfits) h.ends

/-- A port that is too great makes a text no URL. -/
theorem read_eq_error (hbig : 65535 < Decimal.ofDigits 10 digits) :
    Url.read (servedLine scheme userinfo cs digits tail) = .error .badPort := by
  have hserver : Url.Authority.readServer false none (cs ++ ':' :: digits) = .error .badPort := by
    rw [h.named.reads.readServer_eq, Url.readPort_digits h.ne_nil h.isDigit, if_pos hbig]
    rfl
  rw [servedLine, Url.read_authorityText h.schemed (Url.inner_append h.inner h.server_inner) h.ends,
    Url.Authority.read_append_error h.at_not_mem (by simp) hserver]
  rfl

/-- The digits of the port are found in the text, whatever the host and the tail hold, and they
alone decide whether it is too great. -/
theorem portOverflows_eq : portOverflows (servedLine scheme userinfo cs digits tail).toList =
    decide (65535 < Decimal.ofDigits 10 digits) := by
  have hscheme : ':' ∉ scheme.toList := by
    intro hmem
    exact absurd (h.schemed.chars ':' hmem).1 (by decide)
  have hends (c : Char) : (decide (c = '/') || decide (c = '?') || decide (c = '#')) =
      Url.endsAuthority false c := by
    simp [Url.endsAuthority]
  have hauthority := (Url.takeWhile_authority (Url.inner_append h.inner h.server_inner)
    fun c hc => (h.ends c hc).1).1
  have hcolon : ':' ∉ digits := fun hmem => absurd (h.isDigit ':' hmem) (by decide)
  have hbracket : (decide (cs.head? = some '[') && decide (cs.getLast? ≠ some ']')) = false := by
    by_cases hopen : cs.head? = some '['
    · simp [h.named.closed hopen]
    · simp [hopen]
  have hport : Decimal.readNat? 10 digits = some (Decimal.ofDigits 10 digits) := by
    rw [Decimal.readNat?, List.isEmpty_eq_false_iff.2 h.ne_nil, List.all_eq_true.2 h.isDigit]
    rfl
  have hcut : portOverflows.cutSlashes (servedLine scheme userinfo cs digits tail).toList =
      some (userinfo ++ '@' :: (cs ++ ':' :: digits) ++ tail) := by
    rw [servedLine, String.toList_ofList, List.append_assoc, List.append_assoc]
    exact cutSlashes_append hscheme _
  rw [portOverflows, hcut]
  simp only [hends, hauthority, Text.cutLast?_append_cons userinfo h.at_not_mem,
    Text.cutLast?_append_cons cs hcolon, hbracket, Bool.false_eq_true, if_false, hport]

/-- What a link is read as has the scheme, the credentials and the server that are written in it. -/
theorem eq_of_readUrl {url : Url}
    (hread : readUrl title (servedLine scheme userinfo cs digits tail) = .ok url) :
    url = Url.servedFrom scheme userinfo host (some (Decimal.ofDigits 10 digits)) tail := by
  rw [readUrl] at hread
  by_cases hbig : 65535 < Decimal.ofDigits 10 digits
  · rw [h.read_eq_error hbig] at hread
    cases hread
  · rw [h.read_eq_ok (Nat.not_lt.1 hbig)] at hread
    exact (Except.ok.inj hread).symm

/-- The server of a link has the port that the digits denote, unless no port can be that number. -/
theorem server_eq (title : String) :
    (readUrl title (servedLine scheme userinfo cs digits tail) >>= readServer title) =
      if Decimal.ofDigits 10 digits = 0 ∨ 65535 < Decimal.ofDigits 10 digits then
        .error (.portOutOfRange title)
      else .ok ⟨text, Decimal.ofDigits 10 digits⟩ := by
  by_cases hbig : 65535 < Decimal.ofDigits 10 digits
  · rw [readUrl, h.read_eq_error hbig, if_pos (Or.inr hbig)]
    simp only [h.portOverflows_eq, hbig, decide_true, if_true]
    rfl
  · rw [readUrl, h.read_eq_ok (Nat.not_lt.1 hbig)]
    generalize Decimal.ofDigits 10 digits = n at hbig
    have hport : (Url.servedFrom scheme userinfo host (some n) tail).port = some n := rfl
    have hvalid : Address.isPort n = decide (n ≠ 0) := by
      rw [Bool.eq_iff_iff, Address.isPort, Bool.and_eq_true]
      simp only [decide_eq_true_iff]
      omega
    rw [Outcome.ok_bind, readServer, h.named.shown _ rfl]
    simp only [hport, hvalid, h.named.valid]
    by_cases hzero : n = 0
    · simp [hzero]
    · simp [hzero, hbig]

end IsServed

end Port

end LinkSieve.Link
