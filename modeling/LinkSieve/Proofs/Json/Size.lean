import LinkSieve.Proofs.Address.Size
import LinkSieve.Proofs.Decimal.Places
import LinkSieve.Proofs.Json.Reading

/-!
# How large a value is written that has been read

A value is written with its own tokens, which are the tokens it has been read from. A text comes out
no longer than six characters for each of its own, and a number of at most 24 characters has been
read from three at least, unless it is a small integer or a negative zero. So a value is written in
no more than eight times the length of the text that it is read from, and its canonical form in no
more than the value itself.
-/

namespace LinkSieve.Json

open Decimal (Magnitude Scaled)
open Text.Utf8 (size)

section Decimals

variable {d : Scaled}

theorem size_digitChars (d : Scaled) : size d.digitChars = d.digitChars.length :=
  Decimal.size_toDigits Decimal.isBase_ten d.digits

theorem size_replicate_zero (n : Nat) : size (List.replicate n '0') = n := by
  rw [Text.Utf8.size_of_ascii, List.length_replicate]
  intro c hc
  rw [List.eq_of_mem_replicate hc]
  decide

theorem size_positional_le (d : Scaled) :
    size d.positional ≤ d.digitChars.length + d.exponent.toNat + 1 ∨
      size d.positional ≤ (-d.exponent).toNat + 2 := by
  have hdigits := size_digitChars d
  simp only [Scaled.positional]
  split
  · left
    rw [Text.Utf8.size_append, size_replicate_zero]
    omega
  split
  · left
    generalize d.digitChars.length - (-d.exponent).toNat = places
    have hsplit : size (d.digitChars.take places) + size (d.digitChars.drop places) =
        size d.digitChars := by
      rw [← Text.Utf8.size_append, List.take_append_drop]
    rw [Text.Utf8.size_append, Text.Utf8.size_cons_of_ascii (by decide)]
    omega
  · right
    rw [Text.Utf8.size_cons_of_ascii (by decide), Text.Utf8.size_cons_of_ascii (by decide),
      Text.Utf8.size_append, size_replicate_zero]
    omega

/-- An integer is written with its digits, and with a sign if it is negative. -/
theorem size_text_int_le {n : Int} {k : Nat} (hk : 0 < k) (h : n.natAbs < 10 ^ k) :
    size (Number.int n).text ≤ k + (decide (n < 0)).toNat := by
  cases n with
  | ofNat n =>
      rw [Numeral.text_ofNat]
      exact Nat.le_add_right_of_le (Decimal.size_toDigits_le Decimal.isBase_ten hk h)
  | negSucc n =>
      rw [Numeral.text_negSucc, Text.Utf8.size_cons_of_ascii (by decide),
        decide_eq_true (Int.negSucc_lt_zero n)]
      exact Nat.succ_le_succ (Decimal.size_toDigits_le Decimal.isBase_ten hk h)

theorem size_exponentText_le {e : Int} (h : e.natAbs < 1000) :
    size (Number.exponentText e) ≤ 4 := by
  have htext : size (toString e).toList ≤ 3 + (decide (e < 0)).toNat :=
    size_text_int_le (by decide) h
  rw [Number.exponentText, Text.Utf8.size_append]
  split
  · rename_i hsign
    have hplus : size ['+'] = 1 := rfl
    rw [decide_eq_false (Int.not_lt.2 hsign)] at htext
    simp only [Bool.toNat_false] at htext
    omega
  · have hlast := Bool.toNat_le (decide (e < 0))
    rw [Text.Utf8.size_nil]
    omega

/-- A shortest decimal has at most 23 characters. -/
theorem size_decimalText_le (hdigits : d.digits < 10 ^ 17) (hlow : -449 ≤ d.exponent)
    (hhigh : d.exponent ≤ 432) : size (Number.decimalText d) ≤ 23 := by
  have hlength : d.digitChars.length ≤ 17 :=
    (Nat.length_toDigits_le_iff (by decide) (by decide)).2 hdigits
  have hsize := size_digitChars d
  have hpositional := size_positional_le d
  simp only [Number.decimalText]
  split
  · rename_i hplain
    rw [Bool.and_eq_true, decide_eq_true_iff, decide_eq_true_iff] at hplain
    have hend : size ".0".toList = 2 := rfl
    rw [Text.Utf8.size_append, hend]
    omega
  split
  · rename_i hplain
    rw [Bool.and_eq_true, decide_eq_true_iff, decide_eq_true_iff] at hplain
    omega
  · have hexponent : size (Number.exponentText (d.digitChars.length + d.exponent - 1)) ≤ 4 :=
      size_exponentText_le (by omega)
    rw [Text.Utf8.size_append, Text.Utf8.size_cons_of_ascii (by decide)]
    generalize d.digitChars = digits at hlength hsize hexponent
    split
    · omega
    · rename_i first rest _
      rw [Text.Utf8.size_cons] at hsize
      rw [Text.Utf8.size_cons, Text.Utf8.size_cons_of_ascii (by decide)]
      omega
    · rw [Text.Utf8.size_nil]
      omega

theorem size_text_float_le {m : Magnitude} (hm : m.InFormat) (negative : Bool) :
    size (Number.float (.finite negative m)).text ≤ 24 := by
  obtain ⟨hdigits, hlow, hhigh⟩ := Magnitude.shortest_bounds hm .even
  have hdecimal := size_decimalText_le hdigits hlow hhigh
  have hminus : size ['-'] = 1 := rfl
  rw [Number.text, Text.Utf8.size_append]
  split
  · omega
  · rw [Text.Utf8.size_nil]
    omega

end Decimals

namespace Numeral

variable {cs : List Char} {x : Numeral} {m : Magnitude}

theorem takeDigits?_eq_some {digits rest : List Char} (h : takeDigits? cs = some (digits, rest)) :
    digits ≠ [] ∧ cs = digits ++ rest := by
  simp only [takeDigits?] at h
  split at h
  · cases h
  · rename_i hne
    obtain ⟨rfl, rfl⟩ := Prod.mk.inj (Option.some.inj h)
    exact ⟨fun hnil => hne (List.isEmpty_iff.2 hnil), List.takeWhile_append_dropWhile.symm⟩

/-- How many characters the parts of a numeral take at least. -/
def minLength (x : Numeral) : Nat :=
  x.negative.toNat + x.whole.length + (if x.fraction.isSome then 2 else 0) +
    (if x.exponent.isSome then 2 else 0)

theorem ne_nil_of_readExponent? {e : Bool × List Char} (h : readExponent? cs = some e) :
    cs ≠ [] := by
  rintro rfl
  cases h

/-- A numeral has a digit, and its parts take no more than its characters. -/
theorem minLength_le (h : read? cs = some x) : x.whole ≠ [] ∧ x.minLength ≤ cs.length := by
  unfold read? at h
  split at h
  rename_i negative rest hsign
  have hlength : negative.toNat + rest.length ≤ cs.length := by
    split at hsign
    · obtain ⟨rfl, rfl⟩ := Prod.mk.inj hsign
      exact Nat.le_of_eq (Nat.add_comm _ _)
    · obtain ⟨rfl, rfl⟩ := Prod.mk.inj hsign
      exact Nat.le_of_eq (Nat.zero_add _)
  obtain ⟨⟨whole, after⟩, hwhole, h⟩ := Option.bind_eq_some_iff.1 h
  obtain ⟨hne, hrest⟩ := takeDigits?_eq_some hwhole
  rw [hrest, List.length_append] at hlength
  simp only at h
  split at h
  · cases h
  have hwithout {fraction : Option (List Char)}
      (h : some ⟨negative, whole, fraction, none⟩ = some x)
      (hfraction : (if fraction.isSome then 2 else 0) ≤ after.length) :
      x.whole ≠ [] ∧ x.minLength ≤ cs.length := by
    obtain rfl := Option.some.inj h
    refine ⟨hne, ?_⟩
    simp only [minLength, Option.isSome_none, Bool.false_eq_true, if_false]
    omega
  have hwith {fraction : Option (List Char)} {last : List Char}
      (h : ((readExponent? last).bind fun e => some ⟨negative, whole, fraction, some e⟩) = some x)
      (hfraction : (if fraction.isSome then 2 else 0) + (last.length + 1) ≤ after.length) :
      x.whole ≠ [] ∧ x.minLength ≤ cs.length := by
    obtain ⟨e, he, h⟩ := Option.bind_eq_some_iff.1 h
    obtain rfl := Option.some.inj h
    have hlast := List.length_pos_iff.2 (ne_nil_of_readExponent? he)
    refine ⟨hne, ?_⟩
    simp only [minLength, Option.isSome_some, if_true]
    omega
  split at h
  · obtain ⟨⟨fraction, last⟩, hfound, h⟩ := Option.bind_eq_some_iff.1 h
    obtain ⟨⟨digits, tail⟩, hdigits, heq⟩ := Option.map_eq_some_iff.1 hfound
    obtain ⟨rfl, rfl⟩ := Prod.mk.inj heq
    obtain ⟨hdigits, hafter⟩ := takeDigits?_eq_some hdigits
    have hpos := List.length_pos_iff.2 hdigits
    have htwo : 2 + tail.length ≤ digits.length + tail.length + 1 := by omega
    rw [List.length_cons, hafter, List.length_append] at hwithout hwith
    simp only at h
    split at h
    · exact hwithout h htwo
    · exact hwith h htwo
    · exact hwith h htwo
    · cases h
  · obtain ⟨⟨fraction, last⟩, hfound, h⟩ := Option.bind_eq_some_iff.1 h
    obtain ⟨rfl, rfl⟩ := Prod.mk.inj (Option.some.inj hfound)
    simp only at h
    split at h
    · exact hwithout h (Nat.zero_le _)
    · exact hwith h (Nat.le_of_eq (Nat.zero_add _))
    · exact hwith h (Nat.le_of_eq (Nat.zero_add _))
    · cases h

theorem integer?_bounds {n : Int} (h : x.integer? = some n) :
    n.natAbs < 10 ^ x.whole.length ∧ (decide (n < 0)).toNat ≤ x.negative.toNat := by
  have hlt := Decimal.ofDigits_lt Decimal.isBase_ten x.whole
  simp only [integer?] at h
  split at h
  · cases h
  split at h
  · rename_i hnegative
    split at h
    · obtain rfl := Option.some.inj h
      rw [hnegative, Int.natAbs_neg, Int.natAbs_natCast]
      exact ⟨hlt, Bool.toNat_le _⟩
    · cases h
  · split at h
    · obtain rfl := Option.some.inj h
      rw [decide_eq_false (Int.not_lt.2 (Int.natCast_nonneg _)), Int.natAbs_natCast]
      exact ⟨hlt, Nat.zero_le _⟩
    · cases h

theorem inFormat_of_scale? {fuel : Nat} {e : Int} {m' : Magnitude} (hm : m.InFormat)
    (h : scale? fuel m e = some m') : m'.InFormat := by
  induction fuel generalizing m e with
  | zero => exact Option.some.inj h ▸ Magnitude.inFormat_zero
  | succ fuel ih =>
      rw [scale?] at h
      split at h
      · obtain ⟨power, -, h⟩ := Option.bind_eq_some_iff.1 h
        split at h
        · exact Magnitude.inFormat_of_ofRatio? h
        · exact Magnitude.inFormat_of_ofRatio? h
      split at h
      · exact Option.some.inj h ▸ hm
      split at h
      · cases h
      · obtain ⟨power, -, h⟩ := Option.bind_eq_some_iff.1 h
        obtain ⟨next, hnext, h⟩ := Option.bind_eq_some_iff.1 h
        exact ih (Magnitude.inFormat_of_ofRatio? hnext) h

theorem inFormat_of_magnitude? (h : x.magnitude? = some m) : m.InFormat := by
  unfold magnitude? at h
  dsimp only at h
  split at h
  · obtain ⟨n, hn, h⟩ := Option.bind_eq_some_iff.1 h
    exact inFormat_of_scale? (Magnitude.inFormat_of_ofRatio? hn) h
  split at h
  · cases h
  · exact Option.some.inj h ▸ Magnitude.inFormat_zero

theorem magnitude?_minus_zero {c : Char} (hc : Decimal.ofDigits 10 [c] = 0) :
    magnitude? ⟨true, [c], none, none⟩ = some .zero := by
  have hdigit : (Decimal.digit? 10 c).getD 0 = 0 := (Nat.zero_add _).symm.trans hc
  have hsignificand : significand ⟨true, [c], none, none⟩ = (0, 0) := by
    simp only [significand, gather, hdigit]
    rfl
  unfold magnitude?
  rw [hsignificand]
  rfl

theorem plain_of_short (hread : read? cs = some x) (hshort : cs.length < 3) :
    x.fraction = none ∧ x.exponent = none := by
  obtain ⟨hne, hlength⟩ := minLength_le hread
  have hwhole := List.length_pos_iff.2 hne
  rw [minLength] at hlength
  rw [← Option.not_isSome_iff_eq_none, ← Option.not_isSome_iff_eq_none]
  constructor
  · intro hsome
    rw [if_pos hsome] at hlength
    omega
  · intro hsome
    rw [if_pos hsome] at hlength
    omega

/-- A numeral of less than three characters is an integer, or else a negative zero. -/
theorem eq_zero_of_short (hread : read? cs = some x) (hshort : cs.length < 3)
    (hinteger : x.integer? = none) (h : x.magnitude? = some m) : cs.length = 2 ∧ m = .zero := by
  obtain ⟨hne, hlength⟩ := minLength_le hread
  have hplain := plain_of_short hread hshort
  have hdigits := Decimal.ofDigits_lt Decimal.isBase_ten x.whole
  have hwhole := List.length_pos_iff.2 hne
  obtain ⟨negative, whole, fraction, exponent⟩ := x
  obtain ⟨rfl, rfl⟩ := hplain
  simp only [minLength] at hlength hdigits hwhole
  have hsmall : Decimal.ofDigits 10 whole < 10 ^ 2 :=
    Nat.lt_of_lt_of_le hdigits (Nat.pow_le_pow_right (by decide) (by omega))
  simp only [integer?, Option.isSome_none, Bool.or_self, Bool.false_eq_true, if_false] at hinteger
  cases negative with
  | false =>
      rw [if_neg Bool.false_ne_true, if_pos (by omega)] at hinteger
      cases hinteger
  | true =>
      rw [Bool.toNat_true] at hlength
      have hone : whole.length = 1 := by omega
      obtain ⟨c, rfl⟩ := List.length_eq_one_iff.1 hone
      have hzero : Decimal.ofDigits 10 [c] = 0 := by
        apply Nat.eq_zero_of_not_pos
        intro hpos
        have hfits : (decide (0 < Decimal.ofDigits 10 [c]) &&
            decide (Decimal.ofDigits 10 [c] ≤ 0x8000_0000_0000_0000)) = true := by
          rw [Bool.and_eq_true, decide_eq_true_iff, decide_eq_true_iff]
          exact ⟨hpos, by omega⟩
        rw [if_pos rfl, if_pos hfits] at hinteger
        cases hinteger
      rw [magnitude?_minus_zero hzero] at h
      exact ⟨by omega, (Option.some.inj h).symm⟩

/-- A number is written in at most eight times the length of its numeral. -/
theorem size_text_le_of_number? {n : Number} (hread : read? cs = some x) (h : x.number? = some n) :
    size n.text ≤ 8 * cs.length := by
  obtain ⟨hne, hlength⟩ := minLength_le hread
  rw [number?] at h
  split at h
  · rename_i k hk
    obtain rfl := Option.some.inj h
    obtain ⟨hlt, hsign⟩ := integer?_bounds hk
    have htext := size_text_int_le (List.length_pos_iff.2 hne) hlt
    rw [minLength] at hlength
    omega
  · rename_i hinteger
    obtain ⟨m, hm, rfl⟩ := Option.map_eq_some_iff.1 h
    have htext := size_text_float_le (inFormat_of_magnitude? hm) x.negative
    by_cases hshort : cs.length < 3
    · obtain ⟨htwo, rfl⟩ := eq_zero_of_short hread hshort hinteger hm
      have hzero (negative : Bool) : size (Number.float (.finite negative .zero)).text ≤ 4 := by
        cases negative with
        | false => decide
        | true => decide
      exact (hzero x.negative).trans (by omega)
    · omega

end Numeral

section Texts

theorem size_escapeChar_le (c : Char) : size (escapeChar c) ≤ 6 := by
  have hpair (d : Char) (hd : d.toNat < 0x80) : size ['\\', d] ≤ 6 := by
    rw [Text.Utf8.size_cons_of_ascii (by decide), Text.Utf8.size_cons_of_ascii hd]
    exact Nat.le_add_left 2 4
  rw [escapeChar]
  split
  · exact hpair _ (by decide)
  split
  · exact hpair _ (by decide)
  split
  · exact hpair _ (by decide)
  split
  · exact hpair _ (by decide)
  split
  · exact hpair _ (by decide)
  split
  · exact hpair _ (by decide)
  split
  · exact hpair _ (by decide)
  split
  · rename_i hcontrol
    have hdigit (n : Nat) (hn : n < 16) : n.digitChar.toNat < 0x80 :=
      Text.forall_of_all (P := fun c => c.toNat < 0x80) (by decide) _
        (Decimal.digitChar_mem_digitChars n hn)
    have hfront : size "\\u00".toList = 4 := rfl
    rw [Text.Utf8.size_append, hfront, Text.Utf8.size_cons_of_ascii (hdigit _ (by omega)),
      Text.Utf8.size_cons_of_ascii (hdigit _ (Nat.mod_lt _ (by decide)))]
    exact Nat.le_refl 6
  · rw [Text.Utf8.size_cons]
    exact (Text.Utf8.length_utf8EncodeChar_le c).trans (by decide)

theorem size_quote_le (s : String) : size (quote s) ≤ 6 * s.toList.length + 2 := by
  have hescaped (cs : List Char) : size (cs.flatMap escapeChar) ≤ 6 * cs.length := by
    induction cs with
    | nil => exact Nat.le_refl 0
    | cons c cs ih =>
        have hc := size_escapeChar_le c
        rw [List.flatMap_cons, Text.Utf8.size_append, List.length_cons]
        omega
  have hend : size ['"'] = 1 := rfl
  have hbody := hescaped s.toList
  rw [quote, Text.Utf8.size_cons_of_ascii (by decide), Text.Utf8.size_append, hend]
  omega

end Texts

namespace Token

/-- How large a token is written. -/
def written : Token → Nat
  | .atom value => size value.write
  | _ => 1

/-- How large tokens are written. -/
def total (ts : List Token) : Nat :=
  (ts.map written).sum

@[simp] theorem total_nil : total [] = 0 := rfl

@[simp] theorem total_cons (t : Token) (ts : List Token) :
    total (t :: ts) = t.written + total ts := List.sum_cons

@[simp] theorem total_append (ts us : List Token) : total (ts ++ us) = total ts + total us := by
  rw [total, List.map_append, List.sum_append, total, total]

/-- How many characters a state has kept for the token that they have begun: one for each that has
been read, and one for the quote before them. -/
def State.kept : State → Nat
  | .between => 0
  | .word read => read.length
  | .string read => read.length + 1
  | .escape read => read.length + 1
  | .unit _ _ _ read => read.length + 1
  | .lowEscape _ read => read.length + 1
  | .lowUnit _ read => read.length + 1

section Written

variable {state next : State} {c : Char} {cs : List Char} {ts : List Token}

theorem written_word? {value : Json} (h : word? cs = some value) :
    size value.write ≤ 8 * cs.length := by
  have hlength {w : String} {n : Nat} (hw : String.ofList cs = w) (hn : n ≤ 8 * w.toList.length) :
      n ≤ 8 * cs.length := by
    rwa [← hw, String.toList_ofList] at hn
  unfold word? at h
  split at h
  · rename_i hnull
    obtain rfl := Option.some.inj h
    exact hlength hnull (by decide)
  · rename_i htrue
    obtain rfl := Option.some.inj h
    exact hlength htrue (by decide)
  · rename_i hfalse
    obtain rfl := Option.some.inj h
    exact hlength hfalse (by decide)
  · obtain ⟨n, hn, rfl⟩ := Option.map_eq_some_iff.1 h
    obtain ⟨x, hread, hnumber⟩ := Option.bind_eq_some_iff.1 hn
    exact Numeral.size_text_le_of_number? hread hnumber

theorem written_single? {t : Token} (h : single? c = some t) : t.written = 1 := by
  cases t with
  | atom value => exact absurd h (single?_ne_atom c value)
  | _ => rfl

theorem total_start (h : start c = some (ts, next)) :
    total ts + 8 * next.kept ≤ 8 := by
  rw [start] at h
  split at h
  · cases h
    exact Nat.zero_le _
  split at h
  · cases h
    exact Nat.le_refl _
  split at h
  · cases h
    exact Nat.le_refl _
  · obtain ⟨t, ht, heq⟩ := Option.map_eq_some_iff.1 h
    cases heq
    have hone := written_single? ht
    rw [total_cons, total_nil, hone]
    decide

theorem kept_closeUnit {high : Option Nat} {value : Nat} {read : List Char}
    (h : closeUnit high value read = some next) : next.kept ≤ read.length + 2 := by
  cases high with
  | some high =>
      simp only [closeUnit] at h
      split at h
      · exact Option.some.inj h ▸ Nat.le_refl _
      · cases h
  | none =>
      simp only [closeUnit] at h
      split at h
      · exact Option.some.inj h ▸ Nat.le_succ _
      split at h
      · cases h
      · exact Option.some.inj h ▸ Nat.le_refl _

/-- A character makes room for eight bytes, and a token is written in the room made for it. -/
theorem total_step (h : step state c = some (ts, next)) :
    total ts + 8 * next.kept ≤ 8 * (state.kept + 1) := by
  have hnone {after : State} (h : some (([] : List Token), after) = some (ts, next))
      (hkept : after.kept ≤ state.kept + 1) :
      total ts + 8 * next.kept ≤ 8 * (state.kept + 1) := by
    cases h
    exact (Nat.zero_add _).trans_le (Nat.mul_le_mul_left 8 hkept)
  cases state with
  | between => exact total_start h
  | word read =>
      rw [step] at h
      split at h
      · exact hnone h (Nat.le_refl _)
      · obtain ⟨value, hvalue, h⟩ := Option.bind_eq_some_iff.1 h
        obtain ⟨⟨us, after⟩, hstart, h⟩ := Option.bind_eq_some_iff.1 h
        cases h
        have hword : size value.write ≤ 8 * State.kept (.word read) :=
          (written_word? hvalue).trans (Nat.mul_le_mul_left 8 (Nat.le_of_eq List.length_reverse))
        have hrest := total_start hstart
        rw [total_cons, written]
        omega
  | string read =>
      rw [step] at h
      split at h
      · cases h
        have htext := size_quote_le (String.ofList read.reverse)
        rw [String.toList_ofList, List.length_reverse] at htext
        have hkept : State.kept (.string read) = read.length + 1 := rfl
        have hbetween : State.kept .between = 0 := rfl
        rw [total_cons, total_nil, written, write]
        omega
      split at h
      · exact hnone h (Nat.le_succ _)
      split at h
      · cases h
      · exact hnone h (Nat.le_refl _)
  | escape read =>
      rw [step] at h
      split at h
      · exact hnone h (Nat.le_succ _)
      · obtain ⟨e, -, h⟩ := Option.map_eq_some_iff.1 h
        exact hnone (congrArg some h) (Nat.le_refl _)
  | unit high digits value read =>
      rw [step] at h
      obtain ⟨d, -, h⟩ := Option.bind_eq_some_iff.1 h
      split at h
      · exact hnone h (Nat.le_succ _)
      · obtain ⟨after, hclose, h⟩ := Option.bind_eq_some_iff.1 h
        exact hnone h (kept_closeUnit hclose)
  | lowEscape high read =>
      rw [step] at h
      split at h
      · exact hnone h (Nat.le_succ _)
      · cases h
  | lowUnit high read =>
      rw [step] at h
      split at h
      · exact hnone h (Nat.le_succ _)
      · cases h

theorem total_scanFrom (h : scanFrom state cs = some ts) :
    total ts ≤ 8 * (state.kept + cs.length) := by
  induction cs generalizing state ts with
  | nil =>
      cases state with
      | between =>
          cases h
          exact Nat.le_refl _
      | word read =>
          obtain ⟨value, hvalue, rfl⟩ := Option.map_eq_some_iff.1 h
          have hword := written_word? hvalue
          rw [List.length_reverse] at hword
          exact hword
      | _ => cases h
  | cons c cs ih =>
      rw [scanFrom_cons] at h
      obtain ⟨⟨us, after⟩, hstep, h⟩ := Option.bind_eq_some_iff.1 h
      obtain ⟨vs, hrest, rfl⟩ := Option.map_eq_some_iff.1 h
      have hfirst := total_step hstep
      have hothers := ih hrest
      simp only at hothers ⊢
      rw [total_append, List.length_cons]
      omega

end Written

end Token

section Values

open Token (total total_nil total_cons total_append written)

mutual

/-- A value is written with its tokens. -/
theorem size_write : ∀ v : Json, size v.write = total v.tokens
  | .null => rfl
  | .bool _ => rfl
  | .number _ => rfl
  | .text _ => rfl
  | .array items => by
      have hitems := size_writeItems items
      rw [write, tokens]
      simp (disch := decide) only [Text.Utf8.size_append, Text.Utf8.size_cons_of_ascii,
        Text.Utf8.size_nil, total_append, total_cons, total_nil, written]
      omega
  | .object fields => by
      have hfields := size_writeFields fields
      rw [write, tokens]
      simp (disch := decide) only [Text.Utf8.size_append, Text.Utf8.size_cons_of_ascii,
        Text.Utf8.size_nil, total_append, total_cons, total_nil, written]
      omega

theorem size_writeItems : ∀ items : List Json, size (writeItems items) = total (itemTokens items)
  | [] => rfl
  | [item] => size_write item
  | item :: next :: rest => by
      have hitem := size_write item
      have hrest := size_writeItems (next :: rest)
      rw [writeItems, itemTokens]
      · simp (disch := decide) only [Text.Utf8.size_append, Text.Utf8.size_cons_of_ascii,
          total_append, total_cons, written]
        omega
      · exact List.cons_ne_nil _ _
      · exact List.cons_ne_nil _ _

theorem size_writeFields : ∀ fields : List (String × Json),
    size (writeFields fields) = total (fieldTokens fields)
  | [] => rfl
  | [(name, value)] => by
      have hvalue := size_write value
      rw [writeFields, fieldTokens]
      simp (disch := decide) only [Text.Utf8.size_append, Text.Utf8.size_cons_of_ascii,
        total_cons, written, write]
      omega
  | (name, value) :: next :: rest => by
      have hvalue := size_write value
      have hrest := size_writeFields (next :: rest)
      rw [writeFields, fieldTokens]
      · simp (disch := decide) only [Text.Utf8.size_append, Text.Utf8.size_cons_of_ascii,
          total_append, total_cons, written, write]
        omega
      · exact List.cons_ne_nil _ _
      · exact List.cons_ne_nil _ _

end

/-- A value is written in at most eight times the length of the text that it is read from. -/
theorem size_write_le_of_read? {cs : List Char} {v : Json} (h : read? cs = some v) :
    size v.write ≤ 8 * cs.length := by
  have htotal := Token.total_scanFrom (read?_eq_some_iff.1 h).1
  rw [size_write]
  exact htotal.trans (Nat.le_of_eq (congrArg (8 * ·) (Nat.zero_add cs.length)))

theorem total_itemTokens (items : List Json) :
    total (itemTokens items) = total (commaItems items) - 1 := by
  by_cases hne : items = []
  · rw [hne]
    rfl
  · rw [← itemTokens_append_comma hne, total_append]
    exact (Nat.add_sub_cancel _ 1).symm

theorem total_fieldTokens (fields : List (String × Json)) :
    total (fieldTokens fields) = total (commaFields fields) - 1 := by
  by_cases hne : fields = []
  · rw [hne]
    rfl
  · rw [← fieldTokens_append_comma hne, total_append]
    exact (Nat.add_sub_cancel _ 1).symm

theorem total_commaItems_cons (item : Json) (rest : List Json) :
    total (commaItems (item :: rest)) = total item.tokens + 1 + total (commaItems rest) := by
  rw [commaItems, List.flatMap_cons, total_append, total_append]
  rfl

theorem total_commaFields_cons (field : String × Json) (rest : List (String × Json)) :
    total (commaFields (field :: rest)) =
      size (quote field.1) + total field.2.tokens + 2 + total (commaFields rest) := by
  rw [commaFields, List.flatMap_cons, total_append]
  simp only [total_cons, total_append, total_nil, written, write, commaFields]
  omega

/-- Where a field replaces another one, the fields get no larger than with both of them. -/
theorem total_insertEntry_le (name : String) (value : Json) (entries : List (String × Json)) :
    total (commaFields (Table.insertEntry name value entries)) ≤
      total (commaFields ((name, value) :: entries)) := by
  induction entries with
  | nil => exact Nat.le_refl _
  | cons entry rest ih =>
      rw [Table.insertEntry]
      split
      · exact Nat.le_refl _
      split
      · simp only [total_commaFields_cons] at ih ⊢
        omega
      · simp only [total_commaFields_cons]
        omega

mutual

/-- A canonical form is no larger than the value. -/
theorem total_canonical_le : ∀ v : Json, total v.canonical.tokens ≤ total v.tokens
  | .null => Nat.le_refl _
  | .bool _ => Nat.le_refl _
  | .number _ => Nat.le_refl _
  | .text _ => Nat.le_refl _
  | .array items => by
      have hitems := total_canonicalItems_le items
      rw [canonical, tokens, tokens]
      simp only [total_cons, total_append, total_itemTokens]
      omega
  | .object fields => by
      have hfields := total_canonicalFields_le fields
      rw [canonical, tokens, tokens]
      simp only [total_cons, total_append, total_fieldTokens]
      omega

theorem total_canonicalItems_le : ∀ items : List Json,
    total (commaItems (canonicalItems items)) ≤ total (commaItems items)
  | [] => Nat.le_refl _
  | item :: rest => by
      have hitem := total_canonical_le item
      have hrest := total_canonicalItems_le rest
      rw [canonicalItems, total_commaItems_cons, total_commaItems_cons]
      omega

theorem total_canonicalFields_le : ∀ fields : List (String × Json),
    total (commaFields (canonicalFields fields).entries) ≤ total (commaFields fields)
  | [] => Nat.le_refl _
  | (name, value) :: rest => by
      have hvalue := total_canonical_le value
      have hrest := total_canonicalFields_le rest
      have hinsert := total_insertEntry_le name value.canonical (canonicalFields rest).entries
      rw [canonicalFields, Table.insertIfNew]
      simp only [total_commaFields_cons] at hinsert ⊢
      split
      · omega
      · exact hinsert.trans (by omega)

end

theorem size_write_canonical_le (v : Json) : size v.canonical.write ≤ size v.write := by
  rw [size_write, size_write]
  exact total_canonical_le v

end Values

end LinkSieve.Json
