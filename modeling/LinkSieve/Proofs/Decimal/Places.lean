import LinkSieve.Proofs.Decimal.Shortest
import Mathlib.Tactic.Ring

/-!
# How many places a decimal takes

So many digits denote a number below that power of the base. A magnitude of the format lies between
two powers of ten with exponents of three digits, and its shortest decimal is found on a grid on
which it has at most seventeen places. So that decimal has at most seventeen digits, and its exponent
has at most three.
-/

namespace LinkSieve.Decimal

section Digits

variable {base : Nat}

theorem digitValue_lt (hb : IsBase base) (c : Char) : (digit? base c).getD 0 < base := by
  cases h : digit? base c with
  | none => exact Nat.zero_lt_of_lt hb.one_lt
  | some d => exact of_decide_eq_true (Option.filter_eq_some_iff.1 h).2

theorem foldl_digits_lt (hb : IsBase base) (n : Nat) (cs : List Char) :
    cs.foldl (fun n c => n * base + (digit? base c).getD 0) n < (n + 1) * base ^ cs.length := by
  induction cs generalizing n with
  | nil => exact Nat.lt_of_lt_of_eq (Nat.lt_succ_self n) (Nat.mul_one _).symm
  | cons c cs ih =>
      have hdigit := digitValue_lt hb c
      have hnext : n * base + (digit? base c).getD 0 + 1 ≤ (n + 1) * base := by
        rw [Nat.add_one_mul]
        omega
      calc
        cs.foldl _ (n * base + (digit? base c).getD 0) <
            (n * base + (digit? base c).getD 0 + 1) * base ^ cs.length := ih _
        _ ≤ (n + 1) * base * base ^ cs.length := Nat.mul_le_mul_right _ hnext
        _ = (n + 1) * base ^ (cs.length + 1) := by
            rw [Nat.mul_assoc, Nat.mul_comm base, ← Nat.pow_succ]

/-- So many digits denote a number below that power of the base. -/
theorem ofDigits_lt (hb : IsBase base) (cs : List Char) : ofDigits base cs < base ^ cs.length :=
  Nat.lt_of_lt_of_eq (foldl_digits_lt hb 0 cs) (Nat.one_mul _)

end Digits

namespace Magnitude

variable {a m : Magnitude} {num den n : Nat} {rule : TieRule} {e : Int}

/-- Bounds of the format: a mantissa of 53 bits, with one more for a carry, and how far the exponent
reaches. -/
structure InFormat (a : Magnitude) : Prop where
  mantissa : a.mantissa ≤ 2 ^ 54
  low : -1074 ≤ a.exponent
  high : a.exponent ≤ 971

theorem inFormat_zero : zero.InFormat where
  mantissa := Nat.zero_le _
  low := Int.le_refl _
  high := by decide

theorem roundQuotient_le (num den : Nat) : roundQuotient num den ≤ num / den + 1 := by
  simp only [roundQuotient]
  split
  · exact Nat.le_succ _
  split
  · exact Nat.le_refl _
  split
  · exact Nat.le_succ _
  · exact Nat.le_refl _

/-- A ratio has at most 54 bits in units that are chosen by the bits of its two parts. -/
theorem scaled_lt (hden : den ≠ 0) (he : (num.log2 : Int) - den.log2 - 53 ≤ e) :
    (scaled num den e).1 < (scaled num den e).2 * 2 ^ 54 := by
  have hexponent : num.log2 + 1 + (-e).toNat ≤ den.log2 + (e.toNat + 54) := by omega
  simp only [scaled, Nat.shiftLeft_eq]
  calc
    num * 2 ^ (-e).toNat < 2 ^ (num.log2 + 1) * 2 ^ (-e).toNat :=
      Nat.mul_lt_mul_of_pos_right Nat.lt_log2_self (Nat.two_pow_pos _)
    _ = 2 ^ (num.log2 + 1 + (-e).toNat) := (Nat.pow_add 2 _ _).symm
    _ ≤ 2 ^ (den.log2 + (e.toNat + 54)) := Nat.pow_le_pow_right (by decide) hexponent
    _ = 2 ^ den.log2 * (2 ^ e.toNat * 2 ^ 54) := by rw [Nat.pow_add, Nat.pow_add]
    _ ≤ den * (2 ^ e.toNat * 2 ^ 54) := Nat.mul_le_mul_right _ (Nat.log2_self_le hden)
    _ = den * 2 ^ e.toNat * 2 ^ 54 := (Nat.mul_assoc _ _ _).symm

theorem roundQuotient_scaled_le (he : (num.log2 : Int) - den.log2 - 53 ≤ e) :
    roundQuotient (scaled num den e).1 (scaled num den e).2 ≤ 2 ^ 54 := by
  have hquotient : (scaled num den e).1 / (scaled num den e).2 < 2 ^ 54 := by
    by_cases hden : den = 0
    · have hzero : (scaled num den e).2 = 0 := by rw [scaled, hden, Nat.zero_shiftLeft]
      rw [hzero, Nat.div_zero]
      exact Nat.two_pow_pos 54
    · have hlt := scaled_lt hden he
      have hpos : 0 < (scaled num den e).2 := by
        apply Nat.pos_of_ne_zero
        intro hzero
        rw [hzero, Nat.zero_mul] at hlt
        exact Nat.not_lt_zero _ hlt
      rw [Nat.div_lt_iff_lt_mul hpos, Nat.mul_comm]
      exact hlt
  exact (roundQuotient_le _ _).trans hquotient

/-- What a ratio is rounded to stays within the format. -/
theorem inFormat_of_ofRatio? (h : ofRatio? num den = some m) : m.InFormat := by
  rw [ofRatio?] at h
  split at h
  · exact Option.some.inj h ▸ inFormat_zero
  simp only at h
  generalize hguess : max ((num.log2 : Int) - den.log2 - 53) (-1074) = guess at h
  generalize hexponent : (if (scaled num den guess).1 < (scaled num den guess).2 <<< 53
    then guess else guess + 1) = e at h
  have hunits : (num.log2 : Int) - den.log2 - 53 ≤ e ∧ -1074 ≤ e := by
    rw [← hexponent]
    split
    · omega
    · omega
  obtain ⟨he, hlow⟩ := hunits
  have hcarried : 1 <<< 52 ≤ 2 ^ 54 := by decide
  by_cases hcarry : roundQuotient (scaled num den e).1 (scaled num den e).2 = 1 <<< 53
  · simp only [if_pos hcarry] at h
    split at h
    · rename_i hhigh
      obtain rfl := Option.some.inj h
      exact ⟨hcarried, Int.le_add_one hlow, hhigh⟩
    · cases h
  · simp only [if_neg hcarry] at h
    split at h
    · rename_i hhigh
      obtain rfl := Option.some.inj h
      exact ⟨roundQuotient_scaled_le he, hlow, hhigh⟩
    · cases h

/-- Two to the tenth is a thousand and some more. -/
theorem two_pow_le {k n : Nat} (h : k ≤ 10 * n) : 2 ^ k ≤ 10 ^ (4 * n) := by
  apply (Nat.pow_le_pow_right (by decide) h).trans
  rw [Nat.pow_mul, Nat.pow_mul]
  exact Nat.pow_le_pow_left (by decide) n

/-- A ratio is less than ten to the number of its places. -/
theorem lt_pow_decimalPlaces (hnum : num ≠ 0) (hden : den ≠ 0) :
    num * 10 ^ (-decimalPlaces num den).toNat < den * 10 ^ (decimalPlaces num den).toNat := by
  have hlength (n : Nat) : 1 ≤ (Nat.toDigits 10 n).length :=
    List.length_pos_iff.2 Nat.toDigits_ne_nil
  by_cases hle : den ≤ num
  · have hplaces : decimalPlaces num den = ((Nat.toDigits 10 (num / den)).length : Int) :=
      if_pos hle
    have hquotient : num / den < 10 ^ (Nat.toDigits 10 (num / den)).length :=
      (Nat.length_toDigits_le_iff (by decide) (hlength _)).1 (Nat.le_refl _)
    rw [hplaces, Int.toNat_natCast, Int.toNat_neg_natCast, Nat.pow_zero, Nat.mul_one, Nat.mul_comm]
    exact (Nat.div_lt_iff_lt_mul (Nat.pos_of_ne_zero hden)).1 hquotient
  · generalize hrounded : (den + num - 1) / num - 1 = rest
    have hplaces : decimalPlaces num den = 1 - ((Nat.toDigits 10 rest).length : Int) := by
      rw [decimalPlaces, if_neg hle, hrounded]
    obtain ⟨k, hk⟩ : ∃ k, (Nat.toDigits 10 rest).length = k + 1 :=
      ⟨_, (Nat.sub_add_cancel (hlength rest)).symm⟩
    have hneg : (-decimalPlaces num den).toNat = k := by omega
    have hpos : (decimalPlaces num den).toNat = 0 := by omega
    rw [hneg, hpos, Nat.pow_zero, Nat.mul_one]
    cases k with
    | zero => simpa using Nat.lt_of_not_le hle
    | succ k =>
        have hrest : 10 ^ (k + 1) ≤ rest := by
          apply Nat.le_of_not_lt
          intro hlt
          have hshort := (Nat.length_toDigits_le_iff (by decide) (Nat.succ_pos k)).2 hlt
          omega
        have hpower : 0 < 10 ^ (k + 1) := Nat.pow_pos (by decide)
        have hceil : 10 ^ (k + 1) + 1 ≤ (den + num - 1) / num := by omega
        rw [Nat.le_div_iff_mul_le (Nat.pos_of_ne_zero hnum), Nat.add_mul, Nat.one_mul] at hceil
        have hpos := Nat.pos_of_ne_zero hnum
        rw [Nat.mul_comm]
        omega

theorem length_toDigits_le {n k : Nat} (h : n ≤ 10 ^ k) : (Nat.toDigits 10 n).length ≤ k + 1 :=
  (Nat.length_toDigits_le_iff (by decide) (Nat.succ_pos k)).2
    (Nat.lt_of_le_of_lt h (Nat.pow_lt_pow_right (by decide) (Nat.lt_succ_self k)))

theorem num_pos (hne : a.mantissa ≠ 0) : 0 < a.num := by
  rw [num, Nat.shiftLeft_eq]
  exact Nat.mul_pos (Nat.pos_of_ne_zero hne) (Nat.two_pow_pos _)

theorem den_pos : 0 < a.den := by
  rw [den, Nat.shiftLeft_eq, Nat.one_mul]
  exact Nat.two_pow_pos _

/-- The places of a magnitude of the format. -/
theorem decimalPlaces_inFormat (ha : a.InFormat) (hne : a.mantissa ≠ 0) :
    -432 ≤ decimalPlaces a.num a.den ∧ decimalPlaces a.num a.den ≤ 413 := by
  have hnum : a.num ≤ 10 ^ (4 * 103) := by
    have hhigh := ha.high
    rw [num, Nat.shiftLeft_eq]
    calc
      a.mantissa * 2 ^ a.exponent.toNat ≤ 2 ^ 54 * 2 ^ a.exponent.toNat :=
        Nat.mul_le_mul_right _ ha.mantissa
      _ = 2 ^ (54 + a.exponent.toNat) := (Nat.pow_add 2 54 _).symm
      _ ≤ 10 ^ (4 * 103) := two_pow_le (by omega)
  have hden : a.den ≤ 10 ^ (4 * 108) := by
    have hlow := ha.low
    rw [den, Nat.shiftLeft_eq, Nat.one_mul]
    exact two_pow_le (by omega)
  rw [decimalPlaces]
  split
  · have hlength := length_toDigits_le ((Nat.div_le_self a.num a.den).trans hnum)
    omega
  · have hrest : (a.den + a.num - 1) / a.num - 1 ≤ a.den := by
      have hshift : a.den + a.num - 1 = a.den - 1 + a.num := Nat.sub_add_comm den_pos
      rw [hshift, Nat.add_div_right _ (num_pos hne), Nat.add_sub_cancel]
      exact (Nat.div_le_self _ _).trans (Nat.sub_le _ _)
    have hlength := length_toDigits_le (hrest.trans hden)
    omega

/-- A magnitude counts less than `10 ^ (n + 1)` units of the grid on which it has `n + 1` places. -/
theorem div_lt_of_places {n : Nat} (hnum : num ≠ 0) (hden : den ≠ 0)
    (he : e = decimalPlaces num den - (n + 1 : Nat)) :
    num * 10 ^ (-e).toNat / (den * 10 ^ e.toNat) < 10 ^ (n + 1) := by
  have hplaces := lt_pow_decimalPlaces hnum hden
  generalize decimalPlaces num den = places at he hplaces
  have hpowers : 10 ^ (-e).toNat * 10 ^ places.toNat =
      10 ^ (n + 1) * 10 ^ e.toNat * 10 ^ (-places).toNat := by
    have hsum : (-e).toNat + places.toNat = n + 1 + e.toNat + (-places).toNat := by omega
    rw [← Nat.pow_add, ← Nat.pow_add, ← Nat.pow_add, hsum]
  have hunit : 0 < den * 10 ^ e.toNat :=
    Nat.mul_pos (Nat.pos_of_ne_zero hden) (Nat.pow_pos (by decide))
  rw [Nat.div_lt_iff_lt_mul hunit]
  apply Nat.lt_of_mul_lt_mul_right (a := 10 ^ (-places).toNat)
  calc
    num * 10 ^ (-e).toNat * 10 ^ (-places).toNat =
        num * 10 ^ (-places).toNat * 10 ^ (-e).toNat := Nat.mul_right_comm _ _ _
    _ < den * 10 ^ places.toNat * 10 ^ (-e).toNat :=
        Nat.mul_lt_mul_of_pos_right hplaces (Nat.pow_pos (by decide))
    _ = den * (10 ^ (-e).toNat * 10 ^ places.toNat) := by ring
    _ = 10 ^ (n + 1) * (den * 10 ^ e.toNat) * 10 ^ (-places).toNat := by rw [hpowers]; ring

theorem digits_of_onGrid? {d : Scaled} (h : a.onGrid? rule e = some d) :
    d.digits ≤ a.num * 10 ^ (-e).toNat / (a.den * 10 ^ e.toNat) + 1 := by
  rcases eq_of_onGrid? h with rfl | rfl
  · exact Nat.le_succ _
  · exact Nat.le_refl _

end Magnitude

namespace Scaled

/-- A power of ten is stripped of its zeros. -/
theorem digits_strip_lt {fuel k : Nat} {d : Scaled} (h : d.digits ≤ 10 ^ (k + 1)) :
    (strip (fuel + 1) d).digits < 10 ^ (k + 1) := by
  have hpower : 10 ^ (k + 1) = 10 ^ k * 10 := Nat.pow_succ 10 k
  have hpos : 0 < 10 ^ k := Nat.pow_pos (by decide)
  rcases Nat.lt_or_eq_of_le h with hlt | heq
  · exact Nat.lt_of_le_of_lt (strip_bounds _ d).1 hlt
  · rw [strip, if_pos (by simp only [Bool.and_eq_true, decide_eq_true_iff]; omega)]
    apply Nat.lt_of_le_of_lt (strip_bounds fuel _).1
    simp only
    omega

end Scaled

namespace Magnitude

/-- A shortest decimal has at most seventeen digits and an exponent of three. -/
theorem shortest_bounds {a : Magnitude} (ha : a.InFormat) (rule : TieRule) :
    (a.shortest rule).digits < 10 ^ 17 ∧ -449 ≤ (a.shortest rule).exponent ∧
      (a.shortest rule).exponent ≤ 432 := by
  have hzero : (⟨0, 0⟩ : Scaled).digits < 10 ^ 17 ∧ -449 ≤ (⟨0, 0⟩ : Scaled).exponent ∧
      (⟨0, 0⟩ : Scaled).exponent ≤ 432 := by decide
  rw [shortest]
  split
  · exact hzero
  rename_i hne
  simp only
  split
  · rename_i d hfound
    obtain ⟨n, hn, hgrid⟩ := List.exists_of_findSome?_eq_some hfound
    have hlt : n < 17 := List.mem_range.1 hn
    have hexponent := exponent_of_onGrid? hgrid
    have hplaces := decimalPlaces_inFormat ha hne
    have hdigits : d.digits ≤ 10 ^ (n + 1) :=
      (digits_of_onGrid? hgrid).trans (div_lt_of_places (num_pos hne).ne' den_pos.ne' rfl)
    obtain ⟨-, hlow, hhigh⟩ := d.strip_bounds 20
    refine ⟨?_, by omega, by omega⟩
    exact Scaled.digits_strip_lt (hdigits.trans (Nat.pow_le_pow_right (by decide) hlt))
  · exact hzero

end Magnitude

end LinkSieve.Decimal
