import LinkSieve.Json.Printer
import LinkSieve.Json.Numeral
import LinkSieve.Proofs.Decimal.Digits
import LinkSieve.Proofs.Json.Value
import LinkSieve.Proofs.Text.Split

/-!
# Reading back integers

The text of an integer of 64 bits is a numeral without fraction and exponent that denotes it.
-/

namespace LinkSieve.Json

namespace Numeral

/-- Digits that a numeral may start with: at least one, and no zero before others. -/
structure IsWhole (digits : List Char) : Prop where
  isDigit : ∀ c ∈ digits, Decimal.isDigit 10 c = true
  ne_nil : digits ≠ []
  plain : digits.head? = some '0' → digits.length = 1

theorem isWhole_toDigits (n : Nat) : IsWhole (Nat.toDigits 10 n) where
  isDigit := fun _ hc => Decimal.isDigit_of_mem_toDigits Decimal.isBase_ten hc
  ne_nil := Nat.toDigits_ne_nil
  plain := by
    intro hhead
    by_cases hn : n = 0
    · rw [hn]
      rfl
    · exact absurd hhead (Decimal.head?_toDigits_ne_zero Decimal.isBase_ten hn)

variable {digits : List Char}

theorem takeDigits?_eq (h : IsWhole digits) : takeDigits? digits = some (digits, []) := by
  rw [takeDigits?, Text.takeWhile_eq_self h.isDigit, Text.dropWhile_eq_nil h.isDigit,
    if_neg (by simpa using h.ne_nil)]

theorem not_leadingZero (h : IsWhole digits) :
    (decide (digits.head? = some '0') && decide (1 < digits.length)) = false := by
  rw [Bool.and_eq_false_iff, decide_eq_false_iff_not, decide_eq_false_iff_not]
  by_cases hhead : digits.head? = some '0'
  · right
    rw [h.plain hhead]
    decide
  · exact .inl hhead

/-- Digits on their own are a numeral without a sign. -/
theorem read?_digits (h : IsWhole digits) :
    read? digits = some ⟨false, digits, none, none⟩ := by
  have hsign : digits.head? ≠ some '-' := by
    intro hhead
    exact absurd (h.isDigit '-' (List.mem_of_mem_head? hhead)) (by decide)
  unfold read?
  split
  rename_i negative rest hcut
  split at hcut
  · exact absurd rfl hsign
  · obtain ⟨rfl, rfl⟩ := Prod.mk.inj hcut
    simp only [takeDigits?_eq h, not_leadingZero h, Option.bind_eq_bind, Option.bind_some]
    rfl

theorem read?_neg_digits (h : IsWhole digits) :
    read? ('-' :: digits) = some ⟨true, digits, none, none⟩ := by
  unfold read?
  simp only [takeDigits?_eq h, not_leadingZero h, Option.bind_eq_bind, Option.bind_some]
  rfl

theorem number?_natural {n : Nat} (h : n < 0x1_0000_0000_0000_0000) :
    number? ⟨false, Nat.toDigits 10 n, none, none⟩ = some (.int n) := by
  have hvalue : Decimal.ofDigits 10 (Nat.toDigits 10 n) = n :=
    Decimal.ofDigits_toDigits Decimal.isBase_ten n
  have hinteger : integer? ⟨false, Nat.toDigits 10 n, none, none⟩ = some (n : Int) := by
    simp only [integer?, hvalue, Option.isSome_none, Bool.or_self, Bool.false_eq_true, if_false,
      h, if_true]
  rw [number?, hinteger]

theorem number?_negative {n : Nat} (hpos : 0 < n) (h : n ≤ 0x8000_0000_0000_0000) :
    number? ⟨true, Nat.toDigits 10 n, none, none⟩ = some (.int (-(n : Int))) := by
  have hvalue : Decimal.ofDigits 10 (Nat.toDigits 10 n) = n :=
    Decimal.ofDigits_toDigits Decimal.isBase_ten n
  have hinteger : integer? ⟨true, Nat.toDigits 10 n, none, none⟩ = some (-(n : Int)) := by
    simp only [integer?, hvalue, Option.isSome_none, Bool.or_self, Bool.false_eq_true, if_false,
      hpos, h, decide_true, Bool.and_self, if_true]
  rw [number?, hinteger]

theorem text_ofNat (n : Nat) : (Number.int (.ofNat n)).text = Nat.toDigits 10 n :=
  Nat.toList_repr

theorem text_negSucc (n : Nat) :
    (Number.int (.negSucc n)).text = '-' :: Nat.toDigits 10 (n + 1) := by
  change ("-" ++ (n + 1).repr).toList = _
  rw [String.toList_append, Nat.toList_repr]
  rfl

/-- The text of an integer consists of digits and a sign. -/
theorem mem_text_int {n : Int} {c : Char} (h : c ∈ (Number.int n).text) :
    c = '-' ∨ c ∈ Decimal.digitChars := by
  cases n with
  | ofNat n =>
      rw [text_ofNat] at h
      exact .inr (Decimal.mem_digitChars_of_mem_toDigits Decimal.isBase_ten h)
  | negSucc n =>
      rw [text_negSucc, List.mem_cons] at h
      exact h.imp id (Decimal.mem_digitChars_of_mem_toDigits Decimal.isBase_ten)

/-- The numeral that the text of an integer is denotes it. -/
theorem number?_read?_text {n : Int} (h : Number.InRange (.int n)) :
    (read? (Number.int n).text).bind number? = some (.int n) := by
  obtain ⟨hlow, hhigh⟩ := h
  cases n with
  | ofNat n =>
      have hn : n < 0x1_0000_0000_0000_0000 := by
        have hcast : (n : Int) < 0x1_0000_0000_0000_0000 := hhigh
        omega
      rw [text_ofNat, read?_digits (isWhole_toDigits n)]
      exact number?_natural hn
  | negSucc n =>
      have hn : n + 1 ≤ 0x8000_0000_0000_0000 := by
        omega
      rw [text_negSucc, read?_neg_digits (isWhole_toDigits (n + 1))]
      exact number?_negative (Nat.succ_pos n) hn

end Numeral

/-- What a numeral denotes, if it is kept as an integer, is one of 64 bits. -/
theorem Numeral.inRange_of_number? {x : Numeral} {n : Number} (h : x.number? = some n) :
    n.InRange := by
  rw [number?] at h
  split at h
  · rename_i k hk
    obtain rfl := Option.some.inj h
    simp only [integer?] at hk
    split at hk
    · cases hk
    split at hk
    · split at hk
      · rename_i hfits
        obtain rfl := Option.some.inj hk
        simp only [Bool.and_eq_true, decide_eq_true_iff] at hfits
        constructor <;> omega
      · cases hk
    · split at hk
      · obtain rfl := Option.some.inj hk
        constructor <;> omega
      · cases hk
  · obtain ⟨m, -, rfl⟩ := Option.map_eq_some_iff.1 h
    trivial

end LinkSieve.Json
