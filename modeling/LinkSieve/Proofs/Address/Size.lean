import LinkSieve.Proofs.Address.Ipv6
import LinkSieve.Proofs.Text.Size

/-!
# Sizes of addresses

How large the text of an address is at most. Each number in it is below a power of its base, which
bounds its digits, and there are so many numbers at most.
-/

namespace LinkSieve

theorem Decimal.size_toDigits {base : Nat} (hb : IsBase base) (n : Nat) :
    Text.Utf8.size (Nat.toDigits base n) = (Nat.toDigits base n).length := by
  have hascii : ∀ c ∈ digitChars, c.toNat < 0x80 := Text.forall_of_all (by decide)
  exact Text.Utf8.size_of_ascii fun c hc => hascii c (mem_digitChars_of_mem_toDigits hb hc)

/-- A number below a power of the base has no more digits than the exponent says. -/
theorem Decimal.size_toDigits_le {base n k : Nat} (hb : IsBase base) (hk : 0 < k)
    (h : n < base ^ k) : Text.Utf8.size (Nat.toDigits base n) ≤ k := by
  rw [size_toDigits hb]
  exact (Nat.length_toDigits_le_iff hb.one_lt hk).2 h

namespace Address

open Text.Utf8 (size)

theorem size_port_le {n : Nat} (h : n ≤ 65535) : size (Decimal.natText n) ≤ 5 :=
  Decimal.size_toDigits_le Decimal.isBase_ten (by decide) (Nat.lt_of_le_of_lt h (by decide))

theorem Ipv4.size_text_le (ip : Ipv4) : size ip.text ≤ 15 := by
  apply Text.Utf8.size_intercalate_le (k := 3) (by decide)
  intro piece hpiece
  obtain ⟨n, -, rfl⟩ := List.mem_map.1 hpiece
  exact Decimal.size_toDigits_le Decimal.isBase_ten (by decide)
    (Nat.lt_trans n.toNat_lt (by decide))

namespace Ipv6

theorem size_piecesText_le (pieces : List UInt16) :
    size (piecesText pieces) ≤ pieces.length * 5 - 1 := by
  rw [← List.length_map (f := pieceText)]
  apply Text.Utf8.size_intercalate_le (k := 4) (by decide)
  intro piece hpiece
  obtain ⟨n, -, rfl⟩ := List.mem_map.1 hpiece
  exact Decimal.size_toDigits_le Decimal.isBase_sixteen (by decide) n.toNat_lt

theorem size_shortText_le (ip : Ipv6) : size ip.shortText ≤ 39 := by
  have hlength := length_longestZeros ip.pieces
  rw [ip.length_pieces] at hlength
  have hgap : size "::".toList = 2 := rfl
  rw [shortText]
  generalize longestZeros ip.pieces = found at hlength
  obtain ⟨start, length⟩ := found
  dsimp only at hlength ⊢
  split
  · have hfront := size_piecesText_le (ip.pieces.take start)
    have hback := size_piecesText_le (ip.pieces.drop (start + length))
    rw [Text.Utf8.size_append, Text.Utf8.size_append, hgap]
    omega
  · have hall := size_piecesText_le ip.pieces
    rwa [ip.length_pieces] at hall

theorem size_text_le (ip : Ipv6) : size ip.text ≤ 39 := by
  have hfront : size "::ffff:".toList = 7 := rfl
  rw [text]
  split
  · rename_i high low _
    have hv4 := Ipv4.size_text_le
      ⟨(bytesOf high).1, (bytesOf high).2, (bytesOf low).1, (bytesOf low).2⟩
    rw [Text.Utf8.size_append, hfront]
    omega
  · exact size_shortText_le ip

end Ipv6

end Address

end LinkSieve
