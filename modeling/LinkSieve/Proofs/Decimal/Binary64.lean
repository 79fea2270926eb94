import LinkSieve.Decimal.Reading
import LinkSieve.Proofs.Decimal.Digits
import LinkSieve.Proofs.Text.Split
import Mathlib.Algebra.Ring.Nat

/-!
# Reading integers as double-precision numbers

A natural number that has no more bits than a mantissa is a double-precision number, and rounding
does not change it: its decimal digits are read as that number. Of a number with more bits, rounding
keeps the size.
-/

namespace LinkSieve.Decimal

namespace Magnitude

variable {n : Nat}

theorem roundQuotient_one (n : Nat) : roundQuotient n 1 = n := by
  simp [roundQuotient, Nat.mod_one]

/-- A number in units of a power of two that is no greater than it. -/
theorem scaled_one (n k : Nat) {exponent : Int} (h : exponent + k = 0) :
    scaled n 1 exponent = (n <<< k, 1) := by
  have hneg : (-exponent).toNat = k := by omega
  have hpos : exponent.toNat = 0 := by omega
  rw [scaled, hneg, hpos]
  rfl

/-- A number that fits a mantissa is its own magnitude, shifted until the mantissa is full. -/
theorem ofNat?_eq (hpos : n ≠ 0) (hlt : n < 2 ^ 53) :
    ofNat? n = some ⟨n <<< (52 - n.log2), (n.log2 : Int) - 52⟩ := by
  have hlog : n.log2 ≤ 52 := Nat.lt_succ_iff.1 ((Nat.log2_lt hpos).2 hlt)
  have hguess : max ((n.log2 : Int) - (Nat.log2 1 : Nat) - 53) (-1074) = n.log2 - 53 := by
    have hone : Nat.log2 1 = 0 := by decide
    omega
  have hover : ¬n <<< (53 - n.log2) < 1 <<< 53 := by
    rw [Nat.not_lt, Nat.shiftLeft_eq, Nat.shiftLeft_eq]
    calc 1 * 2 ^ 53 = 2 ^ n.log2 * 2 ^ (53 - n.log2) := by
          rw [← Nat.pow_add, Nat.one_mul, Nat.add_sub_of_le (by omega)]
      _ ≤ n * 2 ^ (53 - n.log2) := Nat.mul_le_mul_right _ (Nat.log2_self_le hpos)
  have hunder : n <<< (52 - n.log2) < 1 <<< 53 := by
    rw [Nat.shiftLeft_eq, Nat.shiftLeft_eq]
    calc n * 2 ^ (52 - n.log2) < 2 ^ (n.log2 + 1) * 2 ^ (52 - n.log2) :=
          Nat.mul_lt_mul_of_pos_right Nat.lt_log2_self (Nat.two_pow_pos _)
      _ = 1 * 2 ^ 53 := by
          rw [← Nat.pow_add, Nat.one_mul]
          congr 1
          omega
  have hfirst : scaled n 1 ((n.log2 : Int) - 53) = (n <<< (53 - n.log2), 1) :=
    scaled_one n (53 - n.log2) (by omega)
  have hsecond : scaled n 1 ((n.log2 : Int) - 53 + 1) = (n <<< (52 - n.log2), 1) :=
    scaled_one n (52 - n.log2) (by omega)
  have hexponent : (n.log2 : Int) - 53 + 1 = n.log2 - 52 := by omega
  rw [ofNat?, ofRatio?, if_neg hpos]
  simp only [hguess, hfirst, if_neg hover, hsecond, roundQuotient_one, if_neg (Nat.ne_of_lt hunder)]
  rw [if_pos (by omega), hexponent]

/-- A number that fits a mantissa is a magnitude. -/
theorem toNat?_ofNat? (hpos : n ≠ 0) (hlt : n < 2 ^ 53) : (ofNat? n).bind toNat? = some n := by
  have hlog : n.log2 ≤ 52 := Nat.lt_succ_iff.1 ((Nat.log2_lt hpos).2 hlt)
  have hnum : ((n.log2 : Int) - 52).toNat = 0 := by omega
  have hden : (-((n.log2 : Int) - 52)).toNat = 52 - n.log2 := by omega
  have hunit : 0 < 2 ^ (52 - n.log2) := Nat.two_pow_pos _
  rw [ofNat?_eq hpos hlt, Option.bind_some, toNat?, num, den]
  simp only [hnum, hden, Nat.shiftLeft_eq, Nat.pow_zero, Nat.mul_one, Nat.one_mul]
  rw [Nat.mul_mod_left, if_pos rfl, Nat.mul_div_cancel _ hunit]

/-- Digits without a fraction and an exponent are rounded as the number that they denote. -/
theorem ofDecimal?_zero (hpos : n ≠ 0) (hlt : n < 2 ^ 53) : ofDecimal? n 0 = ofNat? n := by
  have hplaces : (Nat.toDigits 10 n).length ≤ 16 :=
    (Nat.length_toDigits_le_iff (by decide) (by decide)).2 (by omega)
  rw [ofDecimal?, if_neg hpos]
  simp only
  rw [if_neg (by omega), if_neg (by omega), ofNat?]
  congr 1
  exact Nat.mul_one n

theorem div_le_roundQuotient (num den : Nat) : num / den ≤ roundQuotient num den := by
  simp only [roundQuotient]
  split
  · exact Nat.le_refl _
  split
  · exact Nat.le_succ _
  split
  · exact Nat.le_refl _
  · exact Nat.le_succ _

/-- A number in units of a power of two that is no smaller than one. -/
theorem scaled_one_of_nonneg (n k : Nat) {exponent : Int} (h : exponent = k) :
    scaled n 1 exponent = (n, 2 ^ k) := by
  have hneg : (-exponent).toNat = 0 := by omega
  have hpos : exponent.toNat = k := by omega
  rw [scaled, hneg, hpos, Nat.shiftLeft_eq, Nat.shiftLeft_eq, Nat.pow_zero, Nat.mul_one,
    Nat.one_mul]

theorem two_pow_le_of_mantissa {mantissa exponent k : Nat} (he : k ≤ exponent)
    (hm : 2 ^ 52 ≤ mantissa) :
    2 ^ (52 + k) ≤
      (⟨mantissa, exponent⟩ : Magnitude).num / (⟨mantissa, exponent⟩ : Magnitude).den := by
  have hden : (-(exponent : Int)).toNat = 0 := by omega
  rw [num, den, Int.toNat_natCast, hden, Nat.shiftLeft_eq, Nat.shiftLeft_zero, Nat.div_one,
    Nat.pow_add]
  exact Nat.mul_le_mul hm (Nat.pow_le_pow_right (by decide) he)

/-- A number that does not fit a mantissa is rounded to one that has no fewer bits. -/
theorem exists_ofNat?_ge (hlow : 2 ^ 53 ≤ n) (hhigh : n.log2 < 1023) :
    ∃ m, ofNat? n = some m ∧ 2 ^ n.log2 ≤ m.num / m.den := by
  have hpos : n ≠ 0 := by
    rintro rfl
    exact absurd hlow (by decide)
  have hge : 53 ≤ n.log2 := (Nat.le_log2 hpos).2 hlow
  obtain ⟨k, hk⟩ : ∃ k, n.log2 = 52 + k := ⟨n.log2 - 52, by omega⟩
  have hself : 2 ^ 52 * 2 ^ k ≤ n := by
    calc 2 ^ 52 * 2 ^ k = 2 ^ n.log2 := by rw [hk, Nat.pow_add]
      _ ≤ n := Nat.log2_self_le hpos
  have hguess : max ((n.log2 : Int) - (Nat.log2 1 : Nat) - 53) (-1074) = (k : Int) - 1 := by
    have hone : Nat.log2 1 = 0 := by decide
    omega
  have hfirst : scaled n 1 ((k : Int) - 1) = (n, 2 ^ (k - 1)) :=
    scaled_one_of_nonneg n (k - 1) (by omega)
  have hsecond : scaled n 1 ((k : Int) - 1 + 1) = (n, 2 ^ k) := scaled_one_of_nonneg n k (by omega)
  have hover : ¬n < 2 ^ (k - 1) <<< 53 := by
    rw [Nat.not_lt, Nat.shiftLeft_eq]
    calc 2 ^ (k - 1) * 2 ^ 53 = 2 ^ 52 * 2 ^ k := by
          rw [← Nat.pow_add, ← Nat.pow_add]
          congr 1
          omega
      _ ≤ n := hself
  have hmantissa : 2 ^ 52 ≤ roundQuotient n (2 ^ k) :=
    calc 2 ^ 52 ≤ n / 2 ^ k := (Nat.le_div_iff_mul_le (Nat.two_pow_pos k)).2 hself
      _ ≤ roundQuotient n (2 ^ k) := div_le_roundQuotient n (2 ^ k)
  rw [ofNat?, ofRatio?, if_neg hpos, hk]
  rw [hk] at hguess
  simp only [hguess, hfirst, if_neg hover, hsecond]
  by_cases hcarry : roundQuotient n (2 ^ k) = 1 <<< 53
  · have he : (k : Int) - 1 + 1 + 1 = (k + 1 : Nat) := by omega
    have hhigh : ((k + 1 : Nat) : Int) ≤ 971 := by omega
    simp only [if_pos hcarry, he, if_pos hhigh]
    exact ⟨_, rfl, two_pow_le_of_mantissa (Nat.le_succ k) (by decide)⟩
  · have he : (k : Int) - 1 + 1 = k := by omega
    have hhigh : (k : Int) ≤ 971 := by omega
    simp only [if_neg hcarry, he, if_pos hhigh]
    exact ⟨_, rfl, two_pow_le_of_mantissa (Nat.le_refl k) hmantissa⟩

end Magnitude

section Digits

variable {digits : List Char}

theorem readMagnitude?_digits (hne : digits ≠ []) (hdigits : ∀ c ∈ digits, isDigit 10 c = true) :
    readMagnitude? digits = some (Magnitude.ofDecimal? (ofDigits 10 digits) 0) := by
  have htake : digits.takeWhile (isDigit 10) = digits := Text.takeWhile_eq_self hdigits
  have hdrop : digits.dropWhile (isDigit 10) = [] := Text.dropWhile_eq_nil hdigits
  rw [readMagnitude?, htake, hdrop]
  simp [hne, readExponent?]

/-- Digits on their own are read as what they denote, with no sign and no fraction. -/
theorem readBinary64?_digits (hne : digits ≠ []) (hdigits : ∀ c ∈ digits, isDigit 10 c = true) :
    readBinary64? digits =
      some (.ofMagnitude? false (Magnitude.ofDecimal? (ofDigits 10 digits) 0)) := by
  have hsign : takeSign digits = (false, digits) := by
    unfold takeSign
    split
    · exact absurd (hdigits '-' List.mem_cons_self) (by decide)
    · exact absurd (hdigits '+' List.mem_cons_self) (by decide)
    · rfl
  have hkept : ∀ c : Char, isDigit 10 c = true → c.toLower = c := forall_of_isDigit (by decide)
  have hlower : digits.map Char.toLower = digits :=
    Text.map_eq_self fun c hc => hkept c (hdigits c hc)
  have hword {word : String} {c : Char} (hc : word.toList.head? = some c)
      (hletter : isDigit 10 c = false) : String.ofList digits ≠ word := by
    rintro rfl
    rw [String.toList_ofList] at hc
    rw [hdigits c (List.mem_of_mem_head? hc)] at hletter
    cases hletter
  rw [readBinary64?, hsign]
  simp only [hlower]
  split
  · rename_i heq
    exact absurd heq (hword rfl (by decide))
  · rename_i heq
    exact absurd heq (hword rfl (by decide))
  · rename_i heq
    exact absurd heq (hword rfl (by decide))
  · rw [readMagnitude?_digits hne hdigits]
    rfl

/-- Digits that denote a number which fits a mantissa, with zeros in front or without, are read as
that number. -/
theorem toInt?_readBinary64? (hne : digits ≠ []) (hdigits : ∀ c ∈ digits, isDigit 10 c = true)
    (hpos : ofDigits 10 digits ≠ 0) (hlt : ofDigits 10 digits < 2 ^ 53) :
    (readBinary64? digits).bind Binary64.toInt? = some (ofDigits 10 digits : Int) := by
  have hwhole := Magnitude.toNat?_ofNat? hpos hlt
  obtain ⟨m, hm, hn⟩ := Option.bind_eq_some_iff.1 hwhole
  rw [readBinary64?_digits hne hdigits, Magnitude.ofDecimal?_zero hpos hlt, hm, Option.bind_some,
    Binary64.ofMagnitude?, Binary64.toInt?, hn]
  rfl

end Digits

end LinkSieve.Decimal
