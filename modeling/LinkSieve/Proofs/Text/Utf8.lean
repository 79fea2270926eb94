import LinkSieve.Text.Utf8

/-!
# Reading back UTF-8

The pass over the bytes of a text yields its characters and leaves no gap, so both readings, the
lossy one and the strict one, give the text back. What the pass does on a complete character is
said once, whatever bytes follow it.

Over any bytes the pass yields at most one character or gap for each: a byte that breaks a
character off pays for the gap with what the bytes before it have not yielded.
-/

namespace LinkSieve.Text.Utf8

theorem start_of_one : ∀ n < 0x80, start (UInt8.ofNat n) = ([some (Char.ofNat n)], none) := by
  decide

theorem start_of_two : ∀ n < 32, 2 ≤ n →
    start (UInt8.ofNat (n + 0xC0)) = ([], some ⟨n, 0, 0x80, 0xBF⟩) := by
  decide

theorem start_of_three : ∀ n < 16,
    start (UInt8.ofNat (n + 0xE0)) =
      ([], some ⟨n, 1, if n = 0 then 0xA0 else 0x80, if n = 13 then 0x9F else 0xBF⟩) := by
  decide

theorem start_of_four : ∀ n < 5,
    start (UInt8.ofNat (n + 0xF0)) =
      ([], some ⟨n, 2, if n = 0 then 0x90 else 0x80, if n = 4 then 0x8F else 0xBF⟩) := by
  decide

/-- A byte in the range of the character under way adds six bits to it. -/
theorem step_of_continuation {bits more n : Nat} {low high : UInt8} (hn : n < 64)
    (hlow : low.toNat ≤ n + 0x80) (hhigh : n + 0x80 ≤ high.toNat) :
    step (some ⟨bits, more, low, high⟩) (UInt8.ofNat (n + 0x80)) =
      match more with
      | 0 => ([some (Char.ofNat (bits * 64 + n))], none)
      | more + 1 => ([], some ⟨bits * 64 + n, more, 0x80, 0xBF⟩) := by
  have hb : (UInt8.ofNat (n + 0x80)).toNat = n + 0x80 := by
    rw [UInt8.toNat_ofNat']
    omega
  have hin : low ≤ UInt8.ofNat (n + 0x80) ∧ UInt8.ofNat (n + 0x80) ≤ high := by
    simp only [UInt8.le_iff_toNat_le, hb]
    exact ⟨hlow, hhigh⟩
  cases more with
  | zero => simp only [step, hin, hb, Nat.add_sub_cancel, decide_true, Bool.and_self, if_true]
  | succ more => simp only [step, hin, hb, Nat.add_sub_cancel, decide_true, Bool.and_self, if_true]

theorem scanFrom_start {b : UInt8} {out : List (Option Char)} {next : Option Pending}
    (h : start b = (out, next)) (rest : List UInt8) :
    scanFrom none (b :: rest) = out ++ scanFrom next rest := by
  simp only [scanFrom, step, h]

theorem scanFrom_more {bits more n : Nat} {low high : UInt8} (hn : n < 64)
    (hlow : low.toNat ≤ n + 0x80) (hhigh : n + 0x80 ≤ high.toNat) (rest : List UInt8) :
    scanFrom (some ⟨bits, more + 1, low, high⟩) (UInt8.ofNat (n + 0x80) :: rest) =
      scanFrom (some ⟨bits * 64 + n, more, 0x80, 0xBF⟩) rest := by
  simp only [scanFrom, step_of_continuation hn hlow hhigh, List.nil_append]

theorem scanFrom_last {bits n : Nat} {low high : UInt8} (hn : n < 64)
    (hlow : low.toNat ≤ n + 0x80) (hhigh : n + 0x80 ≤ high.toNat) (rest : List UInt8) :
    scanFrom (some ⟨bits, 0, low, high⟩) (UInt8.ofNat (n + 0x80) :: rest) =
      some (Char.ofNat (bits * 64 + n)) :: scanFrom none rest := by
  simp only [scanFrom, step_of_continuation hn hlow hhigh, List.cons_append, List.nil_append]

/-- The pass over a complete character yields it and starts afresh. How many bytes there are is
settled by the size of the code point, the range of the second byte by the first one. -/
theorem scanFrom_utf8EncodeChar (c : Char) (rest : List UInt8) :
    scanFrom none (String.utf8EncodeChar c ++ rest) = some c :: scanFrom none rest := by
  have hvalid : c.val.toNat.isValidChar := c.valid
  have hc : Char.ofNat c.val.toNat = c := Char.ofNat_toNat c
  generalize hv : c.val.toNat = v at hvalid hc
  unfold Nat.isValidChar at hvalid
  have hlow : (0x80 : UInt8).toNat = 0x80 := rfl
  have hhigh : (0xBF : UInt8).toNat = 0xBF := rfl
  simp only [String.utf8EncodeChar, hv]
  split
  · simp only [List.cons_append, List.nil_append]
    rw [scanFrom_start (start_of_one v (by omega)), hc]
    rfl
  split
  · have hbits : v / 64 % 32 * 64 + v % 64 = v := by omega
    simp only [List.cons_append, List.nil_append]
    rw [scanFrom_start (start_of_two (v / 64 % 32) (by omega) (by omega)), List.nil_append,
      scanFrom_last (by omega) (by omega) (by omega), hbits, hc]
  split
  · have hbits : (v / 4096 % 16 * 64 + v / 64 % 64) * 64 + v % 64 = v := by omega
    simp only [List.cons_append, List.nil_append]
    rw [scanFrom_start (start_of_three (v / 4096 % 16) (by omega)), List.nil_append,
      scanFrom_more (by omega) (by split <;> simp; omega) (by split <;> simp <;> omega),
      scanFrom_last (by omega) (by omega) (by omega), hbits, hc]
  · have hbits :
        ((v / 262144 % 8 * 64 + v / 4096 % 64) * 64 + v / 64 % 64) * 64 + v % 64 = v := by
      omega
    simp only [List.cons_append, List.nil_append]
    rw [scanFrom_start (start_of_four (v / 262144 % 8) (by omega)), List.nil_append,
      scanFrom_more (by omega) (by split <;> simp; omega) (by split <;> simp <;> omega),
      scanFrom_more (by omega) (by omega) (by omega),
      scanFrom_last (by omega) (by omega) (by omega), hbits, hc]

@[simp] theorem encode_nil : encode [] = [] := rfl

@[simp] theorem encode_cons (c : Char) (cs : List Char) :
    encode (c :: cs) = String.utf8EncodeChar c ++ encode cs := rfl

@[simp] theorem encode_append (a b : List Char) : encode (a ++ b) = encode a ++ encode b :=
  List.flatMap_append

/-- The pass over the form of a text yields its characters before it goes on. -/
theorem scanFrom_encode (cs : List Char) (rest : List UInt8) :
    scanFrom none (encode cs ++ rest) = cs.map some ++ scanFrom none rest := by
  induction cs with
  | nil => rfl
  | cons c cs ih =>
      rw [encode_cons, List.append_assoc, scanFrom_utf8EncodeChar, ih, List.map_cons,
        List.cons_append]

theorem scan_encode (cs : List Char) : scan (encode cs) = cs.map some := by
  simpa [scan, scanFrom] using scanFrom_encode cs []

/-- The lossy reading gives a text back. -/
theorem decodeLossy_encode (cs : List Char) : decodeLossy (encode cs) = cs := by
  simp [decodeLossy, scan_encode, Function.comp_def]

/-- The strict reading accepts the form of a text and gives the text back. -/
theorem decode?_encode (cs : List Char) : decode? (encode cs) = some cs := by
  rw [decode?, scan_encode]
  induction cs with
  | nil => rfl
  | cons c cs ih => simp [ih]

/-- An ASCII character is its own form. -/
theorem utf8EncodeChar_of_ascii {c : Char} (h : c.toNat < 0x80) :
    String.utf8EncodeChar c = [UInt8.ofNat c.toNat] := by
  have hle : c.val.toNat ≤ 0x7F := Nat.le_of_lt_succ h
  simp only [String.utf8EncodeChar, hle, if_true]
  rfl

/-- A byte below 0x80 occurs only as the form of an ASCII character. -/
theorem toNat_eq_of_mem_utf8EncodeChar {c : Char} {b : UInt8}
    (hb : b ∈ String.utf8EncodeChar c) (h : b.toNat < 0x80) : c.toNat = b.toNat := by
  have hc : c.toNat = c.val.toNat := rfl
  simp only [String.utf8EncodeChar] at hb
  split at hb
  · rw [List.mem_singleton] at hb
    subst hb
    rw [UInt8.toNat_ofNat']
    omega
  · exfalso
    split at hb
    · simp only [List.mem_cons, List.not_mem_nil, or_false] at hb
      rcases hb with rfl | rfl <;> (rw [UInt8.toNat_ofNat'] at h; omega)
    split at hb
    · simp only [List.mem_cons, List.not_mem_nil, or_false] at hb
      rcases hb with rfl | rfl | rfl <;> (rw [UInt8.toNat_ofNat'] at h; omega)
    · simp only [List.mem_cons, List.not_mem_nil, or_false] at hb
      rcases hb with rfl | rfl | rfl | rfl <;> (rw [UInt8.toNat_ofNat'] at h; omega)

theorem encode_of_ascii {cs : List Char} (h : ∀ c ∈ cs, c.toNat < 0x80) :
    encode cs = cs.map fun c => UInt8.ofNat c.toNat := by
  induction cs with
  | nil => rfl
  | cons c cs ih =>
      rw [encode_cons, utf8EncodeChar_of_ascii (h c List.mem_cons_self),
        ih fun d hd => h d (List.mem_cons_of_mem c hd)]
      rfl

/-- A state in which only a byte that continues a character continues the one under way. -/
def IsInner : Option Pending → Prop
  | none => True
  | some p => 0x80 ≤ p.low ∧ p.high ≤ 0xBF

theorem isInner_none : IsInner none := trivial

theorem isInner_start (b : UInt8) : IsInner (start b).2 := by
  unfold start
  repeat' split
  all_goals simp [IsInner]

theorem isInner_step {state : Option Pending} (b : UInt8) : IsInner (step state b).2 := by
  cases state with
  | none => exact isInner_start b
  | some p =>
      rw [step]
      split
      · cases p.more with
        | zero => exact isInner_none
        | succ more => simp [IsInner]
      · exact isInner_start b

theorem scanFrom_cons (state : Option Pending) (b : UInt8) (rest : List UInt8) :
    scanFrom state (b :: rest) = (step state b).1 ++ scanFrom (step state b).2 rest := by
  cases state with
  | none => rfl
  | some p => rfl

/-- Where a character starts, a byte yields one character or gap, now or once the text ends. -/
theorem length_start (b : UInt8) :
    (start b).1.length + (scanFrom (start b).2 []).length = 1 := by
  unfold start
  repeat' split
  all_goals rfl

theorem length_step_le (state : Option Pending) (b : UInt8) :
    (step state b).1.length + (scanFrom (step state b).2 []).length ≤
      (scanFrom state []).length + 1 := by
  have hstart := length_start b
  cases state with
  | none => exact Nat.le_of_eq hstart
  | some p =>
      rw [step]
      split
      · cases p.more with
        | zero => simp [scanFrom]
        | succ more => simp [scanFrom]
      · simp only [List.length_cons, scanFrom, List.length_nil]
        omega

/-- No character starts with a byte that continues one. -/
theorem not_continuation_of_head? {c : Char} {b : UInt8}
    (h : (String.utf8EncodeChar c).head? = some b) : ¬(0x80 ≤ b ∧ b ≤ 0xBF) := by
  have hvalid : c.val.toNat.isValidChar := c.valid
  unfold Nat.isValidChar at hvalid
  rw [UInt8.le_iff_toNat_le, UInt8.le_iff_toNat_le]
  simp only [String.utf8EncodeChar] at h
  repeat' split at h
  all_goals
    obtain rfl := Option.some.inj h
    rw [UInt8.toNat_ofNat']
    simp only [UInt8.reduceToNat]
    omega

/-- A complete character leaves a gap for the one under way and then stands by itself. -/
theorem scanFrom_char {state : Option Pending} (h : IsInner state) (c : Char)
    (rest : List UInt8) :
    scanFrom state (String.utf8EncodeChar c ++ rest) =
      scanFrom state [] ++ some c :: scanFrom none rest := by
  cases state with
  | none => exact scanFrom_utf8EncodeChar c rest
  | some p =>
      have hchar := scanFrom_utf8EncodeChar c rest
      cases hbytes : String.utf8EncodeChar c with
      | nil => exact absurd hbytes String.utf8EncodeChar_ne_nil
      | cons b bs =>
          have hout : ¬(0x80 ≤ b ∧ b ≤ 0xBF) :=
            not_continuation_of_head? (c := c) (by rw [hbytes]; rfl)
          have hbreak : step (some p) b = (none :: (start b).1, (start b).2) := by
            rw [step, if_neg]
            rw [Bool.and_eq_true, decide_eq_true_iff, decide_eq_true_iff]
            rintro ⟨hlow, hhigh⟩
            exact hout ⟨UInt8.le_trans h.1 hlow, UInt8.le_trans hhigh h.2⟩
          rw [hbytes] at hchar
          simp only [List.cons_append, scanFrom, hbreak] at hchar ⊢
          rw [← hchar]
          rfl

/-- An ASCII byte leaves a gap for the character under way and then stands by itself. -/
theorem scanFrom_ascii {state : Option Pending} (h : IsInner state) {b : UInt8} (hb : b < 0x80)
    (rest : List UInt8) :
    scanFrom state (b :: rest) =
      scanFrom state [] ++ some (Char.ofNat b.toNat) :: scanFrom none rest := by
  have hnat : ∀ n < 0x80, (Char.ofNat n).toNat = n := by decide
  have hlow := UInt8.lt_iff_toNat_lt.1 hb
  have hform : String.utf8EncodeChar (Char.ofNat b.toNat) = [b] := by
    rw [utf8EncodeChar_of_ascii (by rwa [hnat _ hlow]), hnat _ hlow, UInt8.ofNat_toNat]
  rw [← scanFrom_char h, hform, List.singleton_append]

/-- An ASCII byte is read as its character wherever it stands. -/
theorem mem_scanFrom_of_ascii {state : Option Pending} (h : IsInner state) {b : UInt8}
    (hb : b < 0x80) {bytes : List UInt8} (hmem : b ∈ bytes) :
    some (Char.ofNat b.toNat) ∈ scanFrom state bytes := by
  induction bytes generalizing state with
  | nil => cases hmem
  | cons a rest ih =>
      rcases List.mem_cons.1 hmem with rfl | hmem
      · rw [scanFrom_ascii h hb]
        exact List.mem_append_right _ List.mem_cons_self
      · rw [scanFrom_cons]
        exact List.mem_append_right _ (ih (isInner_step a) hmem)

/-- What stands before a complete character is read as if the bytes ended there. -/
theorem scanFrom_append_char {state : Option Pending} (h : IsInner state) (before : List UInt8)
    (c : Char) (after : List UInt8) :
    scanFrom state (before ++ (String.utf8EncodeChar c ++ after)) =
      scanFrom state before ++ some c :: scanFrom none after := by
  induction before generalizing state with
  | nil => exact scanFrom_char h c after
  | cons b before ih =>
      rw [List.cons_append, scanFrom_cons, ih (isInner_step b), scanFrom_cons, List.append_assoc]

/-- A complete character parts the bytes on either side of it, whether they are text or not. -/
theorem decodeLossy_append_char (before : List UInt8) (c : Char) (after : List UInt8) :
    decodeLossy (before ++ (String.utf8EncodeChar c ++ after)) =
      decodeLossy before ++ c :: decodeLossy after := by
  rw [decodeLossy, scan, scanFrom_append_char isInner_none, List.map_append]
  rfl

end LinkSieve.Text.Utf8
