import LinkSieve.Proofs.Text.Percent
import Mathlib.Algebra.Group.Action.Defs
import Mathlib.Algebra.Order.BigOperators.Group.List
import Mathlib.Algebra.Order.Ring.Nat

/-!
# Sizes of texts

How many bytes a text has, and how many it has at most once it has been escaped or its escapes have
been decoded. Escaping makes a text at most three times as large. Decoding makes none larger, for
bytes that are no text come from escapes, which have paid for the replacement character.
-/

namespace LinkSieve.Text

namespace Utf8

@[simp] theorem size_nil : size [] = 0 := rfl

theorem size_cons (c : Char) (cs : List Char) :
    size (c :: cs) = (String.utf8EncodeChar c).length + size cs := by
  rw [size, encode_cons, List.length_append, size]

theorem size_cons_of_ascii {c : Char} (h : c.toNat < 0x80) (cs : List Char) :
    size (c :: cs) = size cs + 1 := by
  rw [size_cons, utf8EncodeChar_of_ascii h, List.length_singleton, Nat.add_comm]

@[simp] theorem size_append (a b : List Char) : size (a ++ b) = size a + size b := by
  rw [size, encode_append, List.length_append, size, size]

theorem length_utf8EncodeChar_pos (c : Char) : 1 ≤ (String.utf8EncodeChar c).length :=
  List.length_pos_iff.2 String.utf8EncodeChar_ne_nil

theorem size_pos {cs : List Char} (h : cs ≠ []) : 0 < size cs := by
  cases cs with
  | nil => exact absurd rfl h
  | cons c cs =>
      rw [size_cons]
      exact Nat.add_pos_left (length_utf8EncodeChar_pos c) _

theorem length_le_size (cs : List Char) : cs.length ≤ size cs := by
  induction cs with
  | nil => exact Nat.le_refl 0
  | cons c cs ih =>
      have hone := length_utf8EncodeChar_pos c
      rw [size_cons, List.length_cons]
      omega

theorem utf8ByteSize_ofList (cs : List Char) : (String.ofList cs).utf8ByteSize = size cs := by
  simp [size, encode, String.utf8ByteSize, String.ofList, List.utf8Encode]

theorem utf8ByteSize_eq (s : String) : s.utf8ByteSize = size s.toList := by
  rw [← utf8ByteSize_ofList, String.ofList_toList]

theorem length_utf8EncodeChar_le (c : Char) : (String.utf8EncodeChar c).length ≤ 4 := by
  rw [String.length_utf8EncodeChar]
  exact Char.utf8Size_le_four c

theorem size_of_ascii {cs : List Char} (h : ∀ c ∈ cs, c.toNat < 0x80) : size cs = cs.length := by
  rw [size, encode_of_ascii h, List.length_map]

theorem size_le_of_sublist {as bs : List Char} (h : as.Sublist bs) : size as ≤ size bs := by
  induction h with
  | slnil => exact Nat.le_refl 0
  | cons c _ ih =>
      rw [size_cons]
      omega
  | cons_cons c _ ih =>
      rw [size_cons, size_cons]
      omega

/-- Putting ASCII characters in the place of others leaves the size as it is. -/
theorem size_map {f : Char → Char} (h : ∀ c, f c ≠ c → c.toNat < 0x80 ∧ (f c).toNat < 0x80)
    (cs : List Char) : size (cs.map f) = size cs := by
  induction cs with
  | nil => rfl
  | cons c cs ih =>
      rw [List.map_cons, size_cons, size_cons, ih]
      by_cases hc : f c = c
      · rw [hc]
      · obtain ⟨hold, hnew⟩ := h c hc
        rw [utf8EncodeChar_of_ascii hold, utf8EncodeChar_of_ascii hnew]
        rfl

theorem size_replace {a b : Char} (ha : a.toNat < 0x80) (hb : b.toNat < 0x80) (cs : List Char) :
    size (cs.map fun c => if c = a then b else c) = size cs := by
  apply size_map
  intro c hc
  by_cases heq : c = a
  · rw [if_pos heq, heq]
    exact ⟨ha, hb⟩
  · exact absurd (if_neg heq) hc

/-- Each text that is joined counts with the separator after it, but for the last one. -/
theorem size_intercalate {sep : Char} (hsep : sep.toNat < 0x80) {texts : List (List Char)}
    (hne : texts ≠ []) :
    size (List.intercalate [sep] texts) + 1 = (texts.map fun text => size text + 1).sum := by
  induction texts with
  | nil => exact absurd rfl hne
  | cons first others ih =>
      cases others with
      | nil => simp
      | cons second others =>
          have hone : size [sep] = 1 := size_cons_of_ascii hsep []
          rw [List.intercalate_cons_cons, size_append, size_append, hone, List.map_cons,
            List.sum_cons, ← ih (List.cons_ne_nil _ _)]
          omega

/-- Texts of a bounded size, joined. -/
theorem size_intercalate_le {sep : Char} (hsep : sep.toNat < 0x80) {texts : List (List Char)}
    {k : Nat} (h : ∀ text ∈ texts, size text ≤ k) :
    size (List.intercalate [sep] texts) ≤ texts.length * (k + 1) - 1 := by
  by_cases hne : texts = []
  · subst hne
    exact Nat.zero_le _
  · have hsum := List.sum_le_card_nsmul (texts.map fun text => size text + 1) (k + 1) (by
      simpa using h)
    rw [← size_intercalate hsep hne, List.length_map, smul_eq_mul] at hsum
    omega

theorem size_splitOn {sep : Char} (hsep : sep.toNat < 0x80) (cs : List Char) :
    ((cs.splitOn sep).map fun piece => size piece + 1).sum = size cs + 1 := by
  rw [← size_intercalate hsep (List.splitOn_ne_nil sep cs), List.intercalate_splitOn]

theorem size_flatten_replicate (n : Nat) (cs : List Char) :
    size (List.replicate n cs).flatten = n * size cs := by
  induction n with
  | zero => simp
  | succ n ih =>
      rw [List.replicate_succ, List.flatten_cons, size_append, ih, Nat.add_one_mul, Nat.add_comm]

end Utf8

namespace Percent

variable {escaped : Char → Bool}

theorem encode_flatten_replicate (n : Nat) (cs : List Char) :
    encode escaped (List.replicate n cs).flatten =
      (List.replicate n (encode escaped cs)).flatten := by
  induction n with
  | zero => rfl
  | succ n ih =>
      rw [List.replicate_succ, List.flatten_cons, encode_append, ih, List.replicate_succ,
        List.flatten_cons]

theorem encode_sublist {as bs : List Char} (h : as.Sublist bs) :
    (encode escaped as).Sublist (encode escaped bs) := by
  induction h with
  | slnil => exact .slnil
  | cons c _ ih =>
      rw [encode_cons]
      exact ih.trans (List.sublist_append_right _ _)
  | cons_cons c _ ih =>
      rw [encode_cons, encode_cons]
      exact (List.Sublist.refl _).append ih

theorem size_flatMap_escape (bytes : List UInt8) :
    Utf8.size (bytes.flatMap escape) = 3 * bytes.length := by
  induction bytes with
  | nil => rfl
  | cons b bytes ih =>
      have hescape : Utf8.size (escape b) = 3 := by
        rw [Utf8.size, encode_escape]
        rfl
      rw [List.flatMap_cons, Utf8.size_append, ih, hescape, List.length_cons]
      omega

/-- Escaping makes a text at most three times as large. -/
theorem size_encode_le (escaped : Char → Bool) (cs : List Char) :
    Utf8.size (encode escaped cs) ≤ 3 * Utf8.size cs := by
  induction cs with
  | nil => exact Nat.le_refl 0
  | cons c cs ih =>
      rw [encode_cons, Utf8.size_append, Utf8.size_cons]
      split
      · rw [size_flatMap_escape]
        omega
      · rw [Utf8.size_cons, Utf8.size_nil]
        omega

end Percent

namespace Utf8

/-- The number of bytes of what the pass yields, with the replacement character in each gap. -/
def yield (out : List (Option Char)) : Nat :=
  size (out.map (·.getD replacement))

@[simp] theorem yield_nil : yield [] = 0 := rfl

theorem yield_append (a b : List (Option Char)) : yield (a ++ b) = yield a + yield b := by
  rw [yield, List.map_append, size_append, yield, yield]

theorem yield_cons (c : Option Char) (out : List (Option Char)) :
    yield (c :: out) = (String.utf8EncodeChar (c.getD replacement)).length + yield out := by
  rw [yield, List.map_cons, size_cons, yield]

theorem length_utf8EncodeChar_ofNat (n : Nat) :
    (String.utf8EncodeChar (Char.ofNat n)).length ≤
      if n < 0x80 then 1 else if n < 0x800 then 2 else if n < 0x10000 then 3 else 4 := by
  rcases ofNat_cases n with hnat | hnull
  · rw [String.utf8EncodeChar, Char.toNat_val, hnat]
    repeat' split
    all_goals
      simp only [List.length_cons, List.length_nil]
      omega
  · have hlength : (String.utf8EncodeChar '\x00').length = 1 := rfl
    rw [hnull, hlength]
    repeat' split
    all_goals omega

/-- Where a character starts, a byte yields no more than a replacement character would. -/
theorem yield_start (b : UInt8) :
    yield (start b).1 + yield (scanFrom (start b).2 []) ≤ 3 := by
  unfold start
  split
  · rename_i hascii
    have hlength := length_utf8EncodeChar_ofNat b.toNat
    have hlow : b.toNat < 0x80 := UInt8.lt_iff_toNat_lt.1 hascii
    rw [if_pos hlow] at hlength
    simp only [yield_cons, Option.getD_some, scanFrom, yield_nil]
    omega
  repeat' split
  all_goals exact Nat.le_refl 3

theorem yield_step_le (state : Option Pending) (b : UInt8) :
    yield (step state b).1 + yield (scanFrom (step state b).2 []) ≤
      yield (scanFrom state []) + 3 := by
  have hstart := yield_start b
  have hgap : (String.utf8EncodeChar replacement).length = 3 := rfl
  cases state with
  | none => exact hstart
  | some p =>
      rw [step]
      split
      · cases p.more with
        | zero =>
            have hchar := length_utf8EncodeChar_le (Char.ofNat (p.bits * 64 + (b.toNat - 0x80)))
            simp only [yield_cons, Option.getD_some, scanFrom, yield_nil]
            simp only [Option.getD_none, hgap]
            omega
        | succ more =>
            simp only [scanFrom, yield_nil]
            omega
      · simp only [yield_cons, Option.getD_none, scanFrom, hgap, yield_nil]
        omega

end Utf8

/-- Decoding the escapes of a text makes it no larger, even where the bytes are no text. -/
theorem Percent.yield_scanFrom_decode {state : Option Utf8.Pending} (hstate : Utf8.IsInner state)
    (cs : List Char) :
    Utf8.yield (Utf8.scanFrom state (decode (Utf8.encode cs))) ≤
      Utf8.size cs + Utf8.yield (Utf8.scanFrom state []) := by
  induction hn : cs.length using Nat.strongRecOn generalizing cs state with
  | ind n ih =>
      subst hn
      cases cs with
      | nil => exact Nat.le_of_eq (Nat.zero_add _).symm
      | cons c cs =>
          have hend : Utf8.yield (Utf8.scanFrom none []) = 0 := rfl
          rw [Utf8.size_cons]
          rcases decode_encode_cons c cs with hdecode | ⟨a, b, rest, byte, rfl, hdecode⟩
          · have hrest := ih cs.length (Nat.lt_succ_self _) Utf8.isInner_none cs rfl
            rw [hdecode, Utf8.scanFrom_char hstate, Utf8.yield_append, Utf8.yield_cons,
              Option.getD_some]
            omega
          · have hnext : Utf8.IsInner (Utf8.step state byte).2 := Utf8.isInner_step byte
            have hrest := ih rest.length (by simp only [List.length_cons]; omega) hnext rest rfl
            have hstep := Utf8.yield_step_le state byte
            have hfirst := Utf8.length_utf8EncodeChar_pos c
            have hsecond := Utf8.length_utf8EncodeChar_pos a
            have hthird := Utf8.length_utf8EncodeChar_pos b
            rw [hdecode, Utf8.scanFrom_cons, Utf8.yield_append, Utf8.size_cons, Utf8.size_cons]
            omega

theorem Percent.size_decodeLossy_decode_le (cs : List Char) :
    Utf8.size (Utf8.decodeLossy (decode (Utf8.encode cs))) ≤ Utf8.size cs :=
  yield_scanFrom_decode Utf8.isInner_none cs

namespace Utf8

theorem eq_map_some_of_mapM {out : List (Option Char)} {cs : List Char}
    (h : out.mapM id = some cs) : out = cs.map some := by
  induction out generalizing cs with
  | nil =>
      obtain rfl := Option.some.inj h
      rfl
  | cons c out ih =>
      rw [List.mapM_cons] at h
      obtain ⟨d, hd, h⟩ := Option.bind_eq_some_iff.1 h
      obtain ⟨ds, hds, h⟩ := Option.bind_eq_some_iff.1 h
      obtain rfl := Option.some.inj h
      rw [ih hds, List.map_cons]
      exact congrArg (· :: ds.map some) hd

/-- How many bytes of the character under way have gone by. -/
def spent : Option Pending → Nat
  | none => 0
  | some p =>
    match p.more with
    | 0 => if p.bits < 0x20 then 1 else if p.bits < 0x400 then 2 else 3
    | 1 => if p.bits < 0x10 then 1 else 2
    | _ => 1

theorem spent_start {b : UInt8} (h : none ∉ (start b).1) :
    yield (start b).1 + spent (start b).2 ≤ 1 := by
  have hb (n : UInt8) : b < n ↔ b.toNat < n.toNat := UInt8.lt_iff_toNat_lt
  revert h
  unfold start
  simp only [hb, UInt8.reduceToNat]
  split
  · rename_i hascii
    intro _
    have hlength := length_utf8EncodeChar_ofNat b.toNat
    rw [if_pos hascii] at hlength
    simp only [yield_cons, Option.getD_some, yield_nil, spent]
    omega
  split
  · exact fun h => absurd (List.mem_singleton_self _) h
  split
  · intro _
    have hbits : b.toNat - 0xC0 < 0x20 := by omega
    simp only [spent, if_pos hbits, yield_nil, Nat.le_refl]
  split
  · exact fun _ => Nat.le_refl 1
  split
  · exact fun _ => Nat.le_refl 1
  split
  · intro _
    have hbits : b.toNat - 0xE0 < 0x10 := by omega
    simp only [spent, if_pos hbits, yield_nil, Nat.le_refl]
  split
  · exact fun _ => Nat.le_refl 1
  split
  · exact fun _ => Nat.le_refl 1
  split
  · exact fun _ => Nat.le_refl 1
  · exact fun h => absurd (List.mem_singleton_self _) h

/-- The bits that are there say how long the form of the character is, once its last byte is in. A
byte that breaks the character off leaves a gap. -/
theorem spent_step {state : Option Pending} (hstate : IsInner state) {b : UInt8}
    (h : none ∉ (step state b).1) :
    yield (step state b).1 + spent (step state b).2 ≤ spent state + 1 := by
  cases state with
  | none => exact spent_start h
  | some p =>
      obtain ⟨bits, more, low, high⟩ := p
      by_cases hin : (low ≤ b && b ≤ high) = true
      · have hsix : b.toNat - 0x80 < 0x40 := by
          rw [Bool.and_eq_true, decide_eq_true_iff, decide_eq_true_iff, UInt8.le_iff_toNat_le,
            UInt8.le_iff_toNat_le] at hin
          have hhigh := UInt8.le_iff_toNat_le.1 hstate.2
          simp only [UInt8.reduceToNat] at hhigh
          omega
        rw [step, if_pos hin]
        rcases more with _ | _ | more
        · have hlength := length_utf8EncodeChar_ofNat (bits * 64 + (b.toNat - 0x80))
          simp only [yield_cons, Option.getD_some, yield_nil, spent]
          repeat' split
          all_goals
            repeat' split at hlength
            all_goals omega
        · simp only [yield_nil, spent]
          repeat' split
          all_goals omega
        · simp only [yield_nil, spent]
          repeat' split
          all_goals omega
      · rw [step, if_neg hin] at h
        exact absurd List.mem_cons_self h

theorem yield_scanFrom_le {state : Option Pending} (hstate : IsInner state) {bytes : List UInt8}
    (h : none ∉ scanFrom state bytes) :
    yield (scanFrom state bytes) ≤ bytes.length + spent state := by
  induction bytes generalizing state with
  | nil =>
      cases state with
      | none => exact Nat.zero_le _
      | some p => exact absurd (List.mem_singleton_self _) h
  | cons b bytes ih =>
      rw [scanFrom_cons, List.mem_append, not_or] at h
      have hstep := spent_step hstate h.1
      have hrest := ih (isInner_step b) h.2
      rw [scanFrom_cons, yield_append, List.length_cons]
      omega

/-- A text has at most as many bytes as it is read from. -/
theorem size_le_of_decode? {bytes : List UInt8} {cs : List Char} (h : decode? bytes = some cs) :
    size cs ≤ bytes.length := by
  have hscan : scanFrom none bytes = cs.map some := eq_map_some_of_mapM h
  have hyield : yield (cs.map some) = size cs := by
    rw [yield, List.map_map]
    exact congrArg size (List.map_id _)
  have hgap : none ∉ scanFrom none bytes := by
    rw [hscan]
    simp
  rw [← hyield, ← hscan]
  exact yield_scanFrom_le isInner_none hgap

end Utf8

end LinkSieve.Text
