import LinkSieve.Proofs.Address.Server
import LinkSieve.Proofs.Url.Reading

/-!
# Servers written in a URL

A domain name, an IPv4 address or an IPv6 address in square brackets names a host of a URL under a
scheme without a meaning of its own. With a port behind it, it is read as a server and nothing is
left over.
-/

namespace LinkSieve.Url

open Address (Ipv4 Ipv6)

/-- A text that names a host: a domain name in letters of either case, an IPv4 address, or an IPv6
address in square brackets. -/
inductive NamesHost : List Char → Prop where
  | name {cs : List Char} :
      Address.isDomainName (cs.map Text.lowerAscii) = true → NamesHost cs
  | ipv4 {cs : List Char} {ip : Ipv4} : Ipv4.read? cs = some ip → NamesHost cs
  | ipv6 {cs : List Char} {ip : Ipv6} : Ipv6.read? cs = some ip → NamesHost ('[' :: (cs ++ [']']))

section Server

variable {cs : List Char}

/-- A character of a name may stand in a host and is kept there. -/
theorem Host.isForbidden_of_inName {c : Char} (h : Address.InName c) :
    Host.isForbidden c = false ∧ Escaped.always c = false := by
  rcases h with h | rfl | rfl
  · have hrange := toNat_of_isAlphanum h
    have hmarks : ∀ d ∈ "#/:<>?@[\\]^| ".toList, d.isAlphanum = false :=
      Text.forall_of_all (by decide)
    constructor
    · rw [Bool.eq_false_iff]
      intro hforbidden
      simp only [Host.isForbidden, Bool.or_eq_true, decide_eq_true_iff,
        List.contains_iff_mem] at hforbidden
      rcases hforbidden with (((rfl | rfl) | rfl) | rfl) | hmark
      · exact absurd h (by decide)
      · exact absurd h (by decide)
      · exact absurd h (by decide)
      · exact absurd h (by decide)
      · rw [hmarks c hmark] at h
        cases h
    · simp only [Escaped.always, Bool.or_eq_false_iff, decide_eq_false_iff_not]
      omega
  · decide
  · decide

theorem isHostBeforePort_of_inName (hne : cs ≠ []) (h : ∀ c ∈ cs, Address.InName c) :
    IsHostBeforePort cs (.name (String.ofList cs)) := by
  have hother : (Host.name (String.ofList cs)).IsOpaque := by
    constructor
    · exact mt String.ofList_eq_empty_iff.1 hne
    · rw [String.toList_ofList]
      exact fun c hc => Host.isForbidden_of_inName (h c hc)
  have hwrites := Host.Writes.name (String.ofList cs)
  rw [String.toList_ofList] at hwrites
  exact hwrites.isHostBeforePort hother

theorem isHostBeforePort_of_read?_ipv6 {ip : Ipv6} (h : Ipv6.read? cs = some ip) :
    IsHostBeforePort ('[' :: (cs ++ [']'])) (.ipv6 ip) := by
  have htext := Ipv6.inText_of_read? h
  have hclose : ']' ∉ cs := fun hmem => absurd (htext ']' hmem) (by unfold Ipv6.InText; decide)
  constructor
  · intro rest
    have hinner : Authority.takeHost true (cs ++ ']' :: ':' :: rest) = (cs ++ [']'], ':' :: rest) :=
      takeHost_bracketed hclose fun c hc => (Option.some.inj hc).symm
    simp [Authority.takeHost, hinner]
  · have hbracketed : Host.readBracketed (cs ++ [']']) = .ok (.ipv6 ip) := by
      rw [Host.readBracketed, if_pos (by simp), List.dropLast_concat, h]
    rw [Authority.readHost, if_neg Bool.false_ne_true, if_neg (by simp), Host.readOpaque,
      hbracketed]
    rfl
  · intro c hc
    have hbracket : ∀ d ∈ "[].:".toList,
        0x20 < d.toNat ∧ d ≠ '@' ∧ endsAuthority false d = false := Text.forall_of_all (by decide)
    rw [List.mem_cons, List.mem_append, List.mem_singleton] at hc
    rcases hc with rfl | hc | rfl
    · exact hbracket _ (by decide)
    · rcases htext c hc with halphanum | rfl | rfl
      · obtain ⟨hforbidden, halways⟩ := Host.isForbidden_of_inName (.inl halphanum)
        exact Host.inner_of_isForbidden hforbidden halways
      · exact hbracket _ (by decide)
      · exact hbracket _ (by decide)
    · exact hbracket _ (by decide)

end Server

end LinkSieve.Url
