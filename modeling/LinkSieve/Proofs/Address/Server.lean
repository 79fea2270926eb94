import LinkSieve.Address.Server
import LinkSieve.Proofs.Decimal.Digits
import LinkSieve.Proofs.Text.Lowercase

/-!
# The characters of hosts

Whatever names a server is written with letters, digits, hyphens, points and colons. So the text of
a host holds no character that means something else where the host stands in a link.
-/

namespace LinkSieve.Address

section Characters

variable {c : Char}

theorem isAlphanum_of_isNameChar (h : isNameChar c = true) : c.isAlphanum = true := by
  have hval : c.toNat = c.val.toNat := rfl
  simp only [isNameChar, Bool.or_eq_true, Bool.and_eq_true, decide_eq_true_iff, Char.le_def,
    UInt32.le_iff_toNat_le, Char.reduceVal, UInt32.reduceToNat] at h
  rw [Text.isAlphanum_iff]
  omega

theorem isAlphanum_of_lowerAscii (h : (Text.lowerAscii c).isAlphanum = true) :
    c.isAlphanum = true := by
  rw [Text.lowerAscii] at h
  split at h
  · rename_i hupper
    exact Text.isAlphanum_iff.2 (.inr (.inl (Text.toNat_of_upper hupper)))
  · exact h

end Characters

section Names

variable {cs : List Char}

/-- A character of a domain name. -/
def InName (c : Char) : Prop :=
  c.isAlphanum = true ∨ c = '-' ∨ c = '.'

theorem inName_of_isNameFrom {place : NamePlace} {dotted : Bool}
    (h : isNameFrom place dotted cs = true) : ∀ c ∈ cs, InName c := by
  induction cs generalizing place dotted with
  | nil => exact fun _ hc => nomatch hc
  | cons c cs ih =>
      rw [isNameFrom] at h
      rw [List.forall_mem_cons]
      split at h
      · rename_i hname
        exact ⟨.inl (isAlphanum_of_isNameChar hname), ih h⟩
      split at h
      · rename_i hhyphen
        exact ⟨.inr (.inl hhyphen), ih (Bool.and_eq_true_iff.1 h).2⟩
      split at h
      · rename_i hpoint
        exact ⟨.inr (.inr hpoint), ih (Bool.and_eq_true_iff.1 h).2⟩
      · cases h

theorem inName_of_isEncodedNameFrom {inPart dotted : Bool}
    (h : isEncodedNameFrom inPart dotted cs = true) : ∀ c ∈ cs, InName c := by
  induction cs generalizing inPart dotted with
  | nil => exact fun _ hc => nomatch hc
  | cons c cs ih =>
      rw [isEncodedNameFrom] at h
      rw [List.forall_mem_cons]
      split at h
      · rename_i hname
        rw [Bool.or_eq_true, decide_eq_true_iff] at hname
        exact ⟨hname.imp isAlphanum_of_isNameChar .inl, ih h⟩
      split at h
      · rename_i hpoint
        exact ⟨.inr (.inr hpoint), ih (Bool.and_eq_true_iff.1 h).2⟩
      · cases h

theorem inName_of_isDomainName (h : isDomainName cs = true) : ∀ c ∈ cs, InName c := by
  rw [isDomainName, Bool.or_eq_true] at h
  rcases h with h | h
  · exact inName_of_isNameFrom h
  · split at h
    · rename_i rest hrest
      have hstart : ∀ c ∈ "xn--".toList, c.isAlphanum = true ∨ c = '-' ∨ c = '.' :=
        Text.forall_of_all (by decide)
      intro c hc
      rw [Text.dropPrefix?_eq_some hrest, List.mem_append] at hc
      rcases hc with hc | hc
      · exact hstart c hc
      · exact inName_of_isEncodedNameFrom h c hc
    · cases h

/-- The characters of a domain name in letters of either case. -/
theorem inName_of_isDomainName_lower (h : isDomainName (cs.map Text.lowerAscii) = true) :
    ∀ c ∈ cs, InName c := by
  intro c hc
  rcases inName_of_isDomainName h _ (List.mem_map_of_mem hc) with hlower | hlower | hlower
  · exact .inl (isAlphanum_of_lowerAscii hlower)
  · exact .inr (.inl (Text.eq_of_lowerAscii_eq (by decide) hlower))
  · exact .inr (.inr (Text.eq_of_lowerAscii_eq (by decide) hlower))

end Names

section Addresses

variable {cs : List Char}

/-- Every piece that is read on the way to a list of results is read. -/
theorem exists_of_mapM_eq_some {α β : Type} {f : α → Option β} {as : List α} {bs : List β}
    (h : as.mapM f = some bs) : ∀ a ∈ as, ∃ b, f a = some b := by
  induction as generalizing bs with
  | nil => exact fun _ ha => nomatch ha
  | cons a as ih =>
      rw [List.mapM_cons] at h
      obtain ⟨b, hb, h⟩ := Option.bind_eq_some_iff.1 h
      obtain ⟨rest, hrest, -⟩ := Option.bind_eq_some_iff.1 h
      exact List.forall_mem_cons.2 ⟨⟨b, hb⟩, ih hrest⟩

theorem isDigit_of_readNat? {base n : Nat} (h : Decimal.readNat? base cs = some n) :
    ∀ c ∈ cs, Decimal.isDigit base c = true := by
  rw [Decimal.readNat?] at h
  split at h
  · rename_i hdigits
    exact List.all_eq_true.1 (Bool.and_eq_true_iff.1 hdigits).2
  · cases h

theorem Ipv4.isDigit_of_readPart? {n : UInt8} (h : readPart? cs = some n) :
    ∀ c ∈ cs, Decimal.isDigit 10 c = true := by
  rw [readPart?] at h
  split at h
  · cases h
  split at h
  · rename_i hread
    exact isDigit_of_readNat? hread
  · cases h

/-- The characters of an IPv4 address. -/
theorem Ipv4.mem_of_read? {ip : Ipv4} (h : read? cs = some ip) :
    ∀ c ∈ cs, c.isAlphanum = true ∨ c = '.' := by
  rw [read?] at h
  split at h
  · rename_i hparts
    intro c hc
    rcases Text.exists_mem_splitOn hc with hpoint | ⟨piece, hpiece, hc⟩
    · exact .inr hpoint
    · obtain ⟨n, hn⟩ := exists_of_mapM_eq_some hparts piece hpiece
      exact .inl (Decimal.isAlphanum_of_isDigit (isDigit_of_readPart? hn c hc))
  · cases h

namespace Ipv6

/-- A character of an IPv6 address. -/
def InText (c : Char) : Prop :=
  c.isAlphanum = true ∨ c = '.' ∨ c = ':'

theorem inText_of_readPiece? {n : UInt16} (h : readPiece? cs = some n) : ∀ c ∈ cs, InText c := by
  rw [readPiece?] at h
  split at h
  · cases h
  · obtain ⟨m, hm, -⟩ := Option.map_eq_some_iff.1 h
    exact fun c hc => .inl (Decimal.isAlphanum_of_isDigit (isDigit_of_readNat? hm c hc))

theorem inText_of_readPieces? {texts : List (List Char)} {pieces : List UInt16}
    (h : readPieces? texts = some pieces) : ∀ text ∈ texts, ∀ c ∈ text, InText c := by
  induction texts generalizing pieces with
  | nil => exact fun _ ht => nomatch ht
  | cons text rest ih =>
      cases rest with
      | nil =>
          rw [List.forall_mem_singleton]
          rw [readPieces?] at h
          split at h
          · obtain ⟨ip, hip, -⟩ := Option.map_eq_some_iff.1 h
            exact fun c hc => (Ipv4.mem_of_read? hip c hc).imp id .inl
          · obtain ⟨n, hn, -⟩ := Option.map_eq_some_iff.1 h
            exact inText_of_readPiece? hn
      | cons next rest =>
          rw [readPieces?] at h
          · obtain ⟨n, hn, h⟩ := Option.bind_eq_some_iff.1 h
            obtain ⟨ns, hns, -⟩ := Option.bind_eq_some_iff.1 h
            exact List.forall_mem_cons.2 ⟨inText_of_readPiece? hn, ih hns⟩
          · exact List.cons_ne_nil _ _

theorem inText_of_pieces (h : ∀ text ∈ cs.splitOn ':', ∀ c ∈ text, InText c) :
    ∀ c ∈ cs, InText c := by
  intro c hc
  rcases Text.exists_mem_splitOn hc with hcolon | ⟨text, htext, hc⟩
  · exact .inr (.inr hcolon)
  · exact h text htext c hc

theorem inText_of_readSide? {last : Bool} {pieces : List UInt16}
    (h : readSide? last cs = some pieces) : ∀ c ∈ cs, InText c := by
  rw [readSide?] at h
  split at h
  · rename_i hempty
    rw [List.isEmpty_iff.1 hempty]
    exact fun _ hc => nomatch hc
  split at h
  · exact inText_of_pieces (inText_of_readPieces? h)
  · refine inText_of_pieces fun text htext => ?_
    obtain ⟨n, hn⟩ := exists_of_mapM_eq_some h text htext
    exact inText_of_readPiece? hn

theorem eq_of_cutGap? {before after : List Char} (h : cutGap? cs = some (before, after)) :
    cs = before ++ "::".toList ++ after := by
  induction cs generalizing before with
  | nil => simp [cutGap?] at h
  | cons c cs ih =>
      unfold cutGap? at h
      split at h
      · rename_i heq
        obtain ⟨rfl, rfl⟩ := Prod.mk.inj (Option.some.inj h)
        exact heq
      · rename_i heq
        obtain ⟨rfl, rfl⟩ := List.cons.inj heq
        obtain ⟨⟨before', after'⟩, hcut, hpair⟩ := Option.map_eq_some_iff.1 h
        obtain ⟨rfl, rfl⟩ := Prod.mk.inj hpair
        rw [ih hcut]
        rfl
      · cases h

/-- The characters of an IPv6 address. -/
theorem inText_of_read? {ip : Ipv6} (h : read? cs = some ip) : ∀ c ∈ cs, InText c := by
  rw [read?] at h
  split at h
  · obtain ⟨pieces, hpieces, -⟩ := Option.bind_eq_some_iff.1 h
    exact inText_of_pieces (inText_of_readPieces? hpieces)
  · rename_i before after hcut
    obtain ⟨first, hfirst, h⟩ := Option.bind_eq_some_iff.1 h
    obtain ⟨last, hlast, -⟩ := Option.bind_eq_some_iff.1 h
    have hcolons : ∀ c ∈ "::".toList, InText c := by
      intro c hc
      have hcolon : c = ':' := List.eq_of_mem_replicate (n := 2) hc
      exact .inr (.inr hcolon)
    intro c hc
    rw [eq_of_cutGap? hcut, List.mem_append, List.mem_append] at hc
    rcases hc with (hc | hc) | hc
    · exact inText_of_readSide? hfirst c hc
    · exact hcolons c hc
    · exact inText_of_readSide? hlast c hc

end Ipv6

end Addresses

section Hosts

variable {cs : List Char}

theorem unbracket_eq_self (h : '[' ∉ cs) : unbracket cs = cs := by
  unfold unbracket
  split
  · exact absurd List.mem_cons_self h
  · rfl

theorem isHost_of_isIpAddress (h : '[' ∉ cs) (hip : isIpAddress cs = true) : isHost cs = true := by
  rw [isHost, unbracket_eq_self h, hip, Bool.true_or]

end Hosts

end LinkSieve.Address
