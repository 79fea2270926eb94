import LinkSieve.Decimal.Shortest
import LinkSieve.Proofs.Decimal.Binary64

/-!
# The plain texts of great numbers

The shortest decimal of a double-precision number has at most seventeen digits. In plain text
nothing but zeros stands behind them, so the text of a number with more digits than these is the
text of a multiple of a power of ten, whatever the number itself may be.
-/

namespace LinkSieve.Decimal

section Exponent

variable {d : Scaled} {a : Magnitude} {rule : TieRule} {e : Int}

/-- Zeros that are dropped go to the exponent, one for each unit of fuel at most. -/
theorem Scaled.strip_bounds (fuel : Nat) (d : Scaled) :
    (strip fuel d).digits ≤ d.digits ∧ d.exponent ≤ (strip fuel d).exponent ∧
      (strip fuel d).exponent ≤ d.exponent + fuel := by
  induction fuel generalizing d with
  | zero => exact ⟨Nat.le_refl _, Int.le_refl _, Int.le_of_eq (Int.add_zero _).symm⟩
  | succ fuel ih =>
      rw [strip]
      split
      · obtain ⟨hdigits, hlow, hhigh⟩ := ih ⟨d.digits / 10, d.exponent + 1⟩
        simp only at hdigits hlow hhigh
        exact ⟨Nat.le_trans hdigits (Nat.div_le_self _ _), by omega, by omega⟩
      · exact ⟨Nat.le_refl _, Int.le_refl _, by omega⟩

namespace Magnitude

/-- What is found on a grid is one of the two points there next to the magnitude. -/
theorem eq_of_onGrid? (h : a.onGrid? rule e = some d) :
    d = ⟨a.num * 10 ^ (-e).toNat / (a.den * 10 ^ e.toNat), e⟩ ∨
      d = ⟨a.num * 10 ^ (-e).toNat / (a.den * 10 ^ e.toNat) + 1, e⟩ := by
  simp only [onGrid?] at h
  generalize rule.takesLower _ _ _ = lower at h
  have hfound {x y : Scaled}
      (h : (if a.holds x then some x else if a.holds y then some y else none) = some d) :
      d = x ∨ d = y := by
    split at h
    · exact .inl (Option.some.inj h).symm
    · split at h
      · exact .inr (Option.some.inj h).symm
      · cases h
  cases lower with
  | true => exact hfound h
  | false => exact (hfound h).symm

theorem exponent_of_onGrid? (h : a.onGrid? rule e = some d) : d.exponent = e := by
  rcases eq_of_onGrid? h with rfl | rfl
  · rfl
  · rfl

/-- A shortest decimal has no more than seventeen digits. -/
theorem exponent_shortest (a : Magnitude) (rule : TieRule) :
    a.shortest rule = ⟨0, 0⟩ ∨ decimalPlaces a.num a.den - 17 ≤ (a.shortest rule).exponent := by
  rw [shortest]
  split
  · exact .inl rfl
  simp only
  split
  · rename_i d hfound
    obtain ⟨n, hn, hgrid⟩ := List.exists_of_findSome?_eq_some hfound
    have hlt : n < 17 := List.mem_range.1 hn
    have hexponent := exponent_of_onGrid? hgrid
    right
    calc
      decimalPlaces a.num a.den - 17 ≤ d.exponent := by omega
      _ ≤ (d.strip 20).exponent := (d.strip_bounds 20).2.1
  · exact .inl rfl

theorem lt_decimalPlaces {num den k : Nat} (h : 10 ^ k ≤ num / den) :
    (k : Int) < decimalPlaces num den := by
  have hden : den ≤ num := by
    apply Nat.le_of_not_lt
    intro hlt
    rw [Nat.div_eq_of_lt hlt] at h
    exact Nat.not_le.2 (Nat.pow_pos (by decide)) h
  have hlength : k < (Nat.toDigits 10 (num / den)).length := by
    apply Nat.lt_of_not_le
    intro hle
    rcases Nat.eq_zero_or_pos k with rfl | hk
    · exact Nat.toDigits_ne_nil (List.length_eq_zero_iff.1 (Nat.le_zero.1 hle))
    · exact Nat.not_le.2 ((Nat.length_toDigits_le_iff (by decide) hk).1 hle) h
  rw [decimalPlaces, if_pos hden]
  exact Int.ofNat_lt.2 hlength

end Magnitude

end Exponent

theorem ofDigits_append_zeros (digits : List Char) (n : Nat) :
    ofDigits 10 (digits ++ List.replicate n '0') = ofDigits 10 digits * 10 ^ n := by
  induction n with
  | zero => simp
  | succ n ih =>
      rw [List.replicate_succ', ← List.append_assoc, ofDigits_append, ih]
      exact Nat.mul_assoc (ofDigits 10 digits) (10 ^ n) 10

/-- In positional notation a decimal without a fraction denotes itself. -/
theorem Scaled.ofDigits_positional {d : Scaled} (h : 0 ≤ d.exponent) :
    ofDigits 10 d.positional = d.digits * 10 ^ d.exponent.toNat := by
  simp only [positional, if_pos h, digitChars]
  rw [ofDigits_append_zeros, ofDigits_toDigits isBase_ten]

/-- The plain text of a number of more than seventeen digits is that of no number but a multiple of
a power of ten. -/
theorem pow_ten_dvd_of_plainText {m : Magnitude} {k n : Nat} (h : 10 ^ (16 + k) ≤ m.num / m.den)
    (htext : (Binary64.finite false m).plainText = toString n) : 10 ^ k ∣ n := by
  have hdigits : (m.shortest .upper).positional = Nat.toDigits 10 n := by
    have hlist := congrArg String.toList htext
    simpa [Binary64.plainText, toString, Nat.repr] using hlist
  have hvalue : n = ofDigits 10 (m.shortest .upper).positional := by
    rw [hdigits, ofDigits_toDigits isBase_ten]
  have hplaces := Magnitude.lt_decimalPlaces h
  rcases Magnitude.exponent_shortest m .upper with hzero | hexponent
  · rw [hvalue, hzero]
    exact Nat.dvd_zero (10 ^ k)
  · rw [hvalue, Scaled.ofDigits_positional (by omega)]
    exact Nat.dvd_mul_left_of_dvd (Nat.pow_dvd_pow 10 (by omega)) _

end LinkSieve.Decimal
