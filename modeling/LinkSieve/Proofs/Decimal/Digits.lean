import LinkSieve.Decimal.Digits
import LinkSieve.Proofs.Text.Lowercase

/-!
# Reading back digits

The digits of a number in a base up to sixteen denote that number, and its first digit is no zero
unless the number is zero.
-/

namespace LinkSieve.Decimal

/-- The characters that numbers in a base up to sixteen are written with. -/
def digitChars : List Char := "0123456789abcdef".toList

theorem hexDigit?_digitChar : ∀ n < 16, hexDigit? n.digitChar = some n := by
  decide

theorem digitChar_mem_digitChars : ∀ n < 16, n.digitChar ∈ digitChars := by
  decide

theorem digitChar_ne_zero : ∀ n < 16, n ≠ 0 → n.digitChar ≠ '0' := by
  decide

/-- A base with digits that numbers can be written with. -/
structure IsBase (base : Nat) : Prop where
  one_lt : 1 < base
  le_sixteen : base ≤ 16

theorem isBase_ten : IsBase 10 := ⟨by decide, by decide⟩

theorem isBase_sixteen : IsBase 16 := ⟨by decide, by decide⟩

variable {base n : Nat} {c : Char}

theorem digit?_digitChar {d : Nat} (hb : IsBase base) (hd : d < base) :
    digit? base d.digitChar = some d := by
  have hle := hb.le_sixteen
  rw [digit?, hexDigit?_digitChar d (by omega), Option.filter_some, if_pos]
  exact decide_eq_true hd

/-- What holds of every digit of the base holds of every digit of a number. -/
theorem forall_mem_toDigits {P : Char → Prop} (hb : IsBase base)
    (h : ∀ d < base, P d.digitChar) (n : Nat) : ∀ c ∈ Nat.toDigits base n, P c := by
  have hpos : 0 < base := Nat.zero_lt_of_lt hb.one_lt
  induction n using Nat.strongRecOn with
  | ind n ih =>
      intro c hc
      by_cases hn : n < base
      · rw [Nat.toDigits_of_lt_base hn, List.mem_singleton] at hc
        exact hc ▸ h n hn
      · have hle : base ≤ n := Nat.not_lt.1 hn
        rw [Nat.toDigits_of_base_le hb.one_lt hle, List.mem_append, List.mem_singleton] at hc
        rcases hc with hc | rfl
        · exact ih (n / base) (Nat.div_lt_self (by omega) hb.one_lt) c hc
        · exact h _ (Nat.mod_lt _ hpos)

/-- A digit of any base is a letter or a digit of ASCII. -/
theorem isAlphanum_of_isDigit (h : isDigit base c = true) : c.isAlphanum = true := by
  obtain ⟨n, hn⟩ := Option.isSome_iff_exists.1 h
  have hhex := Option.eq_some_of_filter_eq_some hn
  have hval : c.toNat = c.val.toNat := rfl
  simp only [hexDigit?, Bool.and_eq_true, decide_eq_true_iff, Char.le_def,
    UInt32.le_iff_toNat_le, Char.reduceVal, UInt32.reduceToNat] at hhex
  rw [Text.isAlphanum_iff]
  split at hhex
  · omega
  split at hhex
  · omega
  split at hhex
  · omega
  · cases hhex

theorem isDigit_ten_iff : isDigit 10 c = true ↔ 48 ≤ c.toNat ∧ c.toNat ≤ 57 := by
  have hzero : '0' ≤ c ↔ 48 ≤ c.toNat := UInt32.le_iff_toNat_le
  have hnine : c ≤ '9' ↔ c.toNat ≤ 57 := UInt32.le_iff_toNat_le
  have hsmall : 'a' ≤ c ↔ 97 ≤ c.toNat := UInt32.le_iff_toNat_le
  have hcapital : 'A' ≤ c ↔ 65 ≤ c.toNat := UInt32.le_iff_toNat_le
  rw [isDigit, digit?, hexDigit?]
  simp only [Bool.and_eq_true, decide_eq_true_iff, hzero, hnine, hsmall, hcapital]
  split
  · simp
    omega
  · split
    · simp
      omega
    · split
      · simp
        omega
      · simp
        omega

/-- The digits of base ten are those of ASCII. -/
theorem isDigit_ten (c : Char) : isDigit 10 c = c.isDigit := by
  have hzero : c.val ≥ '0'.val ↔ 48 ≤ c.toNat := UInt32.le_iff_toNat_le
  have hnine : c.val ≤ '9'.val ↔ c.toNat ≤ 57 := UInt32.le_iff_toNat_le
  rw [Bool.eq_iff_iff, isDigit_ten_iff, Char.isDigit, Bool.and_eq_true, decide_eq_true_iff,
    decide_eq_true_iff, hzero, hnine]

/-- What holds of the ten digits of ASCII holds of every digit. -/
theorem forall_of_isDigit {P : Char → Prop} (h : ∀ n < 10, P (Char.ofNat (48 + n))) :
    ∀ c : Char, isDigit 10 c = true → P c := by
  intro c hc
  have hrange := isDigit_ten_iff.1 hc
  have hchar := h (c.toNat - 48) (by omega)
  rwa [Nat.add_sub_of_le hrange.1, Char.ofNat_toNat] at hchar

theorem mem_digitChars_of_mem_toDigits (hb : IsBase base) (hc : c ∈ Nat.toDigits base n) :
    c ∈ digitChars := by
  apply forall_mem_toDigits hb (P := fun c => c ∈ digitChars) _ n c hc
  intro d hd
  exact digitChar_mem_digitChars d (Nat.lt_of_lt_of_le hd hb.le_sixteen)

theorem isDigit_of_mem_toDigits (hb : IsBase base) (hc : c ∈ Nat.toDigits base n) :
    isDigit base c = true := by
  apply forall_mem_toDigits hb (P := fun c => isDigit base c = true) _ n c hc
  intro d hd
  rw [isDigit, digit?_digitChar hb hd]
  rfl

theorem ofDigits_append (a b : List Char) :
    ofDigits base (a ++ b) =
      b.foldl (fun n c => n * base + (digit? base c).getD 0) (ofDigits base a) := by
  rw [ofDigits, List.foldl_append]
  rfl

/-- The digits of a number denote it. -/
theorem ofDigits_toDigits (hb : IsBase base) (n : Nat) :
    ofDigits base (Nat.toDigits base n) = n := by
  have hpos : 0 < base := Nat.zero_lt_of_lt hb.one_lt
  have hdigit : ∀ d < base, (digit? base d.digitChar).getD 0 = d := by
    intro d hd
    rw [digit?_digitChar hb hd]
    rfl
  induction n using Nat.strongRecOn with
  | ind n ih =>
      by_cases hn : n < base
      · rw [Nat.toDigits_of_lt_base hn]
        simp only [ofDigits, List.foldl_cons, List.foldl_nil, Nat.zero_mul, Nat.zero_add]
        exact hdigit n hn
      · have hbn : base ≤ n := Nat.not_lt.1 hn
        rw [Nat.toDigits_of_base_le hb.one_lt hbn, ofDigits_append,
          ih (n / base) (Nat.div_lt_self (by omega) hb.one_lt)]
        simp only [List.foldl_cons, List.foldl_nil]
        rw [hdigit (n % base) (Nat.mod_lt n hpos), Nat.mul_comm]
        exact Nat.div_add_mod n base

theorem readNat?_toDigits (hb : IsBase base) (n : Nat) :
    readNat? base (Nat.toDigits base n) = some n := by
  have hne : (Nat.toDigits base n).isEmpty = false :=
    List.isEmpty_eq_false_iff.2 Nat.toDigits_ne_nil
  have hall : (Nat.toDigits base n).all (isDigit base) = true :=
    List.all_eq_true.2 fun c hc => isDigit_of_mem_toDigits hb hc
  rw [readNat?, hne, hall, ofDigits_toDigits hb]
  rfl

/-- A number above zero is not written with a zero in front. -/
theorem head?_toDigits_ne_zero (hb : IsBase base) (hn : n ≠ 0) :
    (Nat.toDigits base n).head? ≠ some '0' := by
  have hone := hb.one_lt
  have hle := hb.le_sixteen
  induction n using Nat.strongRecOn with
  | ind n ih =>
      by_cases hlt : n < base
      · rw [Nat.toDigits_of_lt_base hlt, List.head?_cons]
        exact fun h => digitChar_ne_zero n (by omega) hn (Option.some.inj h)
      · have hbn : base ≤ n := Nat.not_lt.1 hlt
        have hpos : n / base ≠ 0 := Nat.ne_of_gt (Nat.div_pos hbn (by omega))
        rw [Nat.toDigits_of_base_le hone hbn, List.head?_append]
        have hhead := ih (n / base) (Nat.div_lt_self (by omega) hone) hpos
        cases hd : (Nat.toDigits base (n / base)).head? with
        | none => exact absurd (List.head?_eq_none_iff.1 hd) Nat.toDigits_ne_nil
        | some c =>
            rw [hd] at hhead
            exact hhead

end LinkSieve.Decimal
