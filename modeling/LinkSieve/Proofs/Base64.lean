import LinkSieve.Base64
import LinkSieve.Proofs.Outcome
import LinkSieve.Proofs.Text.Size

/-!
# Reading back Base64

Bytes that have been written in a dialect are read back from their text, although the dialect is
not told but detected. A text need not show its own dialect: without a symbol on which the
alphabets differ, and without padding, several dialects write the same text. Which of them is
detected makes no difference, since it reads every symbol of the text as the one that wrote it.
What is read at all is what groups of six bits are spelled as, be they groups of bytes or not.

Three bytes take four symbols, so a text takes at most three quarters of the Base64 it is read from,
and its unpadded Base64 at most four thirds of it and the rest of a group.
-/

namespace LinkSieve.Base64

theorem lt_of_mem_groups {data : List UInt8} : ∀ g ∈ groups data, g < 64 := by
  induction data using groups.induct with
  | case1 a b c rest ih =>
      have ha : a.toNat < 256 := a.toNat_lt
      have hb : b.toNat < 256 := b.toNat_lt
      have hc : c.toNat < 256 := c.toNat_lt
      rw [groups]
      simp only [List.forall_mem_cons]
      exact ⟨by omega, by omega, by omega, by omega, ih⟩
  | case2 a b =>
      have ha : a.toNat < 256 := a.toNat_lt
      have hb : b.toNat < 256 := b.toNat_lt
      rw [groups]
      simp only [List.forall_mem_cons]
      exact ⟨by omega, by omega, by omega, fun _ h => nomatch h⟩
  | case3 a =>
      have ha : a.toNat < 256 := a.toNat_lt
      rw [groups]
      simp only [List.forall_mem_cons]
      exact ⟨by omega, by omega, fun _ h => nomatch h⟩
  | case4 => exact fun _ h => nomatch h

/-- No byte string leaves a single group over. -/
theorem length_groups_mod (data : List UInt8) : (groups data).length % 4 ≠ 1 := by
  induction data using groups.induct with
  | case1 a b c rest ih =>
      rw [groups]
      simp only [List.length_cons]
      omega
  | case2 a b => exact (by decide : 3 % 4 ≠ 1)
  | case3 a => exact (by decide : 2 % 4 ≠ 1)
  | case4 => exact (by decide : 0 % 4 ≠ 1)

/-- The groups of a byte string make it up. -/
theorem bytes_groups (data : List UInt8) : bytes (groups data) = data := by
  have hof (a : UInt8) {n : Nat} (hn : n % 256 = a.toNat) : UInt8.ofNat n = a := by
    apply UInt8.toNat_inj.1
    rw [UInt8.toNat_ofNat']
    exact hn
  induction data using groups.induct with
  | case1 a b c rest ih =>
      have ha : a.toNat < 256 := a.toNat_lt
      have hb : b.toNat < 256 := b.toNat_lt
      have hc : c.toNat < 256 := c.toNat_lt
      rw [groups, bytes, ih, hof a (by omega), hof b (by omega), hof c (by omega)]
  | case2 a b =>
      have ha : a.toNat < 256 := a.toNat_lt
      have hb : b.toNat < 256 := b.toNat_lt
      rw [groups, bytes, hof a (by omega), hof b (by omega)]
  | case3 a =>
      have ha : a.toNat < 256 := a.toNat_lt
      rw [groups, bytes, hof a (by omega)]
  | case4 => rfl

/-- Groups that Base64 can consist of: each has six bits, and no group is left over on its own. -/
structure IsGroups (gs : List Nat) : Prop where
  lt : ∀ g ∈ gs, g < 64
  length : gs.length % 4 ≠ 1

theorem isGroups_groups (data : List UInt8) : IsGroups (groups data) :=
  ⟨lt_of_mem_groups, length_groups_mod data⟩

/-- The byte of a symbol. -/
def symbolByte (urlSafe : Bool) (n : Nat) : UInt8 :=
  UInt8.ofNat (symbol urlSafe n).toNat

theorem symbol_ascii : ∀ n < 64, ∀ urlSafe, (symbol urlSafe n).toNat < 0x80 := by
  decide

theorem symbol_ne_pad : ∀ n < 64, ∀ urlSafe, symbol urlSafe n ≠ '=' := by
  decide

theorem symbolByte_ne_pad : ∀ n < 64, ∀ urlSafe, symbolByte urlSafe n ≠ padByte := by
  decide

theorem value?_symbolByte : ∀ n < 64, ∀ urlSafe,
    value? urlSafe (symbolByte urlSafe n) = some n := by
  decide

/-- A byte that stands for a number is the symbol of that number. -/
theorem eq_symbolByte_of_value? {urlSafe : Bool} {b : UInt8} {n : Nat}
    (h : value? urlSafe b = some n) : n < 64 ∧ b = symbolByte urlSafe n := by
  have hall : ∀ k < 256, ∀ urlSafe, (value? urlSafe (UInt8.ofNat k)).all (fun n =>
      decide (n < 64 ∧ UInt8.ofNat k = symbolByte urlSafe n)) = true := by
    decide +kernel
  have hbyte := hall b.toNat b.toNat_lt urlSafe
  rw [UInt8.ofNat_toNat, h] at hbyte
  exact of_decide_eq_true hbyte

theorem symbol_standard_ne : ∀ n < 64, symbol false n ≠ '-' ∧ symbol false n ≠ '_' := by
  decide

/-- The alphabets differ in the symbols only by which the URL-safe one is known. -/
theorem symbol_standard_eq : ∀ n < 64, symbol true n ≠ '-' → symbol true n ≠ '_' →
    symbol false n = symbol true n := by
  decide

/-- The number of equals signs that fill up the last block of `n` symbols, if it is to be filled. -/
def fill (padded : Bool) (n : Nat) : Nat :=
  if padded then (4 - n % 4) % 4 else 0

theorem fill_fill (padded : Bool) (n : Nat) :
    fill (decide (fill padded n ≠ 0)) n = fill padded n := by
  by_cases hnone : fill padded n = 0
  · rw [hnone]
    rfl
  · cases padded with
    | false => exact absurd rfl hnone
    | true => simp [hnone]

/-- The bytes of symbols and padding. -/
def textBytes (urlSafe : Bool) (gs : List Nat) (pads : Nat) : List UInt8 :=
  gs.map (symbolByte urlSafe) ++ List.replicate pads padByte

/-- The text of groups in a dialect. -/
def spell (d : Dialect) (gs : List Nat) : List Char :=
  gs.map (symbol d.urlSafe) ++ List.replicate (fill d.padded gs.length) '='

section Reading

variable {urlSafe : Bool} {gs : List Nat} {pads : Nat}

theorem length_textBytes : (textBytes urlSafe gs pads).length = gs.length + pads := by
  simp [textBytes]

theorem readSymbols_map (offset : Nat) (hlt : ∀ g ∈ gs, g < 64) :
    readSymbols urlSafe offset (gs.map (symbolByte urlSafe)) = .ok gs := by
  induction gs generalizing offset with
  | nil => rfl
  | cons g gs ih =>
      rw [List.map_cons, readSymbols, value?_symbolByte g (hlt g List.mem_cons_self)]
      simp only [ih (offset + 1) fun g' hg => hlt g' (List.mem_cons_of_mem g hg)]
      rfl

theorem readLast_textBytes (start place : Nat) (hlt : ∀ g ∈ gs, g < 64)
    (hplace : pads = 0 ∨ 2 ≤ place + gs.length) :
    readLast urlSafe start place (textBytes urlSafe gs pads) = .ok (gs, pads) := by
  induction gs generalizing place with
  | nil =>
      rw [textBytes, List.map_nil, List.nil_append]
      cases pads with
      | zero => rfl
      | succ pads =>
          have htwo : 2 ≤ place := by simpa using hplace
          rw [List.replicate_succ, readLast, if_pos rfl]
          simp [htwo]
  | cons g gs ih =>
      have hg := hlt g List.mem_cons_self
      have hrest := ih (place + 1) (fun g' hg => hlt g' (List.mem_cons_of_mem g hg))
        (by rw [List.length_cons] at hplace; omega)
      rw [textBytes, List.map_cons, List.cons_append, readLast,
        if_neg (symbolByte_ne_pad g hg urlSafe), value?_symbolByte g hg]
      rw [textBytes] at hrest
      simp only [hrest]
      rfl

/-- The last block, be it full or short, starts at a multiple of four, and is empty only if there is
no text. -/
theorem lastStart_spec (n : Nat) : lastStart n % 4 = 0 ∧ lastStart n ≤ n ∧ n ≤ lastStart n + 4 ∧
    (lastStart n = n → n = 0) := by
  rw [lastStart]
  split <;> omega

/-- Symbols and padding are read as the bytes that the groups make up, if the padding is what the
dialect expects. -/
theorem decode_textBytes (d : Dialect) (hgs : IsGroups gs) :
    decode d (textBytes d.urlSafe gs (fill d.padded gs.length)) = .ok (bytes gs) := by
  have hmod := hgs.length
  generalize hpads : fill d.padded gs.length = pads
  rw [fill] at hpads
  have hcases : pads = 0 ∨ pads = (4 - gs.length % 4) % 4 := by
    split at hpads
    · exact .inr hpads.symm
    · exact .inl hpads.symm
  have hlength : (textBytes d.urlSafe gs pads).length = gs.length + pads := length_textBytes
  have hstray : strayLast? d.urlSafe (textBytes d.urlSafe gs pads) = none := by
    rw [strayLast?, if_neg]
    rw [hlength]
    omega
  have hspec := lastStart_spec (gs.length + pads)
  generalize hstart : lastStart (gs.length + pads) = start at hspec
  have hle : start ≤ gs.length ∧ (gs.length ≠ 0 → 2 ≤ gs.length - start) := by omega
  have htake : (textBytes d.urlSafe gs pads).take start =
      (gs.take start).map (symbolByte d.urlSafe) := by
    rw [textBytes, List.take_append_of_le_length (by simpa using hle.1), List.map_take]
  have hdrop : (textBytes d.urlSafe gs pads).drop start =
      textBytes d.urlSafe (gs.drop start) pads := by
    rw [textBytes, List.drop_append_of_le_length (by simpa using hle.1), textBytes, List.map_drop]
  have hfull : readSymbols d.urlSafe 0 ((textBytes d.urlSafe gs pads).take start) =
      .ok (gs.take start) := by
    rw [htake]
    exact readSymbols_map 0 fun g hg => hgs.lt g (List.mem_of_mem_take hg)
  have hlast : readLast d.urlSafe start 0 ((textBytes d.urlSafe gs pads).drop start) =
      .ok (gs.drop start, pads) := by
    rw [hdrop]
    apply readLast_textBytes
    · exact fun g hg => hgs.lt g (List.mem_of_mem_drop hg)
    · rw [List.length_drop]
      omega
  have hfew : (textBytes d.urlSafe gs pads ≠ [] && decide ((gs.drop start).length < 2)) =
      false := by
    rw [Bool.and_eq_false_iff, decide_eq_false_iff_not, decide_eq_false_iff_not,
      List.length_drop]
    by_cases hempty : gs.length = 0
    · left
      have hpads0 : pads = 0 := by omega
      rw [List.length_eq_zero_iff.1 hempty, hpads0]
      simp [textBytes]
    · right
      have htwo := hle.2 hempty
      omega
  have hwell : (if d.padded = true then (pads + (gs.drop start).length) % 4 = 0 else pads = 0) := by
    rw [List.length_drop]
    split at hpads
    · rename_i hpadded
      rw [if_pos hpadded]
      omega
    · rename_i hbare
      rw [if_neg hbare]
      exact hpads.symm
  simp only [decode, hstray, hlength, hstart, hfull, hlast, Outcome.ok_bind, hfew,
    Bool.false_eq_true, if_false, hwell, if_true, List.take_append_drop]
  rfl

theorem eq_of_readSymbols {offset : Nat} {text : List UInt8}
    (h : readSymbols urlSafe offset text = .ok gs) :
    text = gs.map (symbolByte urlSafe) ∧ ∀ g ∈ gs, g < 64 := by
  induction text generalizing offset gs with
  | nil =>
      cases h
      exact ⟨rfl, fun _ hg => nomatch hg⟩
  | cons b rest ih =>
      rw [readSymbols] at h
      split at h
      · cases h
      · rename_i v hvalue
        obtain ⟨found, hfound, rfl⟩ := Outcome.map_eq_ok.1 h
        obtain ⟨hlt, rfl⟩ := eq_symbolByte_of_value? hvalue
        obtain ⟨rfl, hrest⟩ := ih hfound
        exact ⟨rfl, List.forall_mem_cons.2 ⟨hlt, hrest⟩⟩

theorem eq_of_readLast {start place : Nat} {text : List UInt8}
    (h : readLast urlSafe start place text = .ok (gs, pads)) :
    text = textBytes urlSafe gs pads ∧ ∀ g ∈ gs, g < 64 := by
  induction text generalizing place gs pads with
  | nil =>
      cases h
      exact ⟨rfl, fun _ hg => nomatch hg⟩
  | cons b rest ih =>
      rw [readLast] at h
      split at h
      · rename_i hpad
        split at h
        · rename_i hrest
          cases h
          rw [Bool.and_eq_true, List.all_eq_true] at hrest
          have hall : ∀ c ∈ rest, c = padByte := fun c hc => of_decide_eq_true (hrest.2 c hc)
          refine ⟨?_, fun _ hg => nomatch hg⟩
          rw [textBytes, List.map_nil, List.nil_append, hpad, List.replicate_succ,
            ← List.eq_replicate_of_mem hall]
        · cases h
      · split at h
        · cases h
        · rename_i v hvalue
          obtain ⟨⟨found, pads'⟩, hfound, heq⟩ := Outcome.map_eq_ok.1 h
          cases heq
          obtain ⟨hlt, rfl⟩ := eq_symbolByte_of_value? hvalue
          obtain ⟨rfl, hrest⟩ := ih hfound
          exact ⟨rfl, List.forall_mem_cons.2 ⟨hlt, hrest⟩⟩

/-- A text that is read consists of symbols and of the padding that the dialect expects: its last
block starts at a multiple of four and holds two symbols at least. -/
theorem exists_of_decode {d : Dialect} {text data : List UInt8} (h : decode d text = .ok data) :
    ∃ gs, IsGroups gs ∧ text = textBytes d.urlSafe gs (fill d.padded gs.length) ∧
      bytes gs = data := by
  simp only [decode] at h
  split at h
  · cases h
  obtain ⟨full, hfull, h⟩ := Outcome.bind_eq_ok.1 h
  obtain ⟨⟨last, pads⟩, hlast, h⟩ := Outcome.bind_eq_ok.1 h
  obtain ⟨hfew, h⟩ := Outcome.check_eq_ok.1 h
  obtain ⟨htake, hfullLt⟩ := eq_of_readSymbols hfull
  obtain ⟨hdrop, hlastLt⟩ := eq_of_readLast hlast
  have htext : text = textBytes d.urlSafe (full ++ last) pads := by
    rw [← List.take_append_drop (lastStart text.length) text, htake, hdrop, textBytes, textBytes,
      List.map_append, List.append_assoc]
  have hfullLength : full.length = min (lastStart text.length) text.length := by
    rw [← List.length_take, htake, List.length_map]
  have hlastLength : last.length + pads = text.length - lastStart text.length := by
    rw [← List.length_drop, hdrop, length_textBytes]
  have htwo : text.length = 0 ∨ 2 ≤ last.length := by
    by_cases hnil : text = []
    · exact .inl (List.length_eq_zero_iff.2 hnil)
    · right
      have hmany : ¬last.length < 2 := by simpa [hnil] using hfew
      exact Nat.not_lt.1 hmany
  have hlength : (full ++ last).length = full.length + last.length := List.length_append
  have hmod : (full ++ last).length % 4 ≠ 1 ∧
      ((pads + last.length) % 4 = 0 → pads = (4 - (full ++ last).length % 4) % 4) := by
    have hspec := lastStart_spec text.length
    omega
  by_cases hwell : if d.padded = true then (pads + last.length) % 4 = 0 else pads = 0
  · rw [if_pos hwell] at h
    refine ⟨full ++ last, ⟨?_, hmod.1⟩, ?_, Except.ok.inj h⟩
    · intro g hg
      exact (List.mem_append.1 hg).elim (hfullLt g) (hlastLt g)
    · have hpads : pads = fill d.padded (full ++ last).length := by
        rw [fill]
        split at hwell
        · rename_i hpadded
          rw [if_pos hpadded]
          exact hmod.2 hwell
        · rename_i hbare
          rw [if_neg hbare]
          exact hwell
      rw [← hpads]
      exact htext
  · rw [if_neg hwell] at h
    cases h

end Reading

section Spelling

variable {d : Dialect} {gs : List Nat}

theorem mem_spell {c : Char} (hgs : IsGroups gs) (hc : c ∈ spell d gs) :
    (∃ n < 64, symbol d.urlSafe n = c) ∨ c = '=' := by
  rw [spell, List.mem_append] at hc
  rcases hc with hc | hc
  · obtain ⟨g, hg, rfl⟩ := List.mem_map.1 hc
    exact .inl ⟨g, hgs.lt g hg, rfl⟩
  · exact .inr (List.eq_of_mem_replicate hc)

theorem ascii_of_mem_spell {c : Char} (hgs : IsGroups gs) (hc : c ∈ spell d gs) :
    c.toNat < 0x80 := by
  rcases mem_spell hgs hc with ⟨n, hn, rfl⟩ | rfl
  · exact symbol_ascii n hn d.urlSafe
  · decide

theorem utf8_spell (hgs : IsGroups gs) :
    Text.Utf8.encode (spell d gs) = textBytes d.urlSafe gs (fill d.padded gs.length) := by
  rw [Text.Utf8.encode_of_ascii fun _ hc => ascii_of_mem_spell hgs hc, spell, List.map_append,
    List.map_map, List.map_replicate]
  rfl

theorem detect_spell_padded (hgs : IsGroups gs) :
    (Dialect.detect (spell d gs)).padded = decide (fill d.padded gs.length ≠ 0) := by
  have hsymbol : (gs.map (symbol d.urlSafe)).getLast? ≠ some '=' := by
    intro hlast
    obtain ⟨g, hg, hpad⟩ := List.mem_map.1 (List.mem_of_getLast? hlast)
    exact symbol_ne_pad g (hgs.lt g hg) d.urlSafe hpad
  rw [Dialect.detect, spell]
  cases fill d.padded gs.length with
  | zero => simpa using hsymbol
  | succ n => simp [List.replicate_succ']

/-- The alphabet that a text shows has every symbol of the text in the place where the alphabet has
it in which the text is written. -/
theorem symbol_detect_spell (hgs : IsGroups gs) :
    ∀ g ∈ gs, symbol (Dialect.detect (spell d gs)).urlSafe g = symbol d.urlSafe g := by
  intro g hg
  have hmem : symbol d.urlSafe g ∈ spell d gs := List.mem_append_left _ (List.mem_map_of_mem hg)
  cases hd : d.urlSafe with
  | true =>
      rw [hd] at hmem
      cases hdetect : (Dialect.detect (spell d gs)).urlSafe with
      | true => rfl
      | false =>
          have hnone := List.any_eq_false.1 hdetect _ hmem
          simp only [Bool.or_eq_true, decide_eq_true_iff, not_or] at hnone
          exact symbol_standard_eq g (hgs.lt g hg) hnone.1 hnone.2
  | false =>
      have hdetect : (Dialect.detect (spell d gs)).urlSafe = false := by
        rw [Dialect.detect]
        simp only [List.any_eq_false, Bool.or_eq_true, decide_eq_true_iff]
        intro c hc
        rcases mem_spell hgs hc with ⟨n, hn, rfl⟩ | rfl
        · rw [hd]
          exact not_or.2 (symbol_standard_ne n hn)
        · decide
      rw [hdetect]

/-- The dialect that a text shows spells the text as the dialect does in which it is written. -/
theorem spell_detect_spell (hgs : IsGroups gs) :
    spell (Dialect.detect (spell d gs)) gs = spell d gs := by
  have hsymbols : gs.map (symbol (Dialect.detect (spell d gs)).urlSafe) =
      gs.map (symbol d.urlSafe) := List.map_congr_left (symbol_detect_spell hgs)
  rw [spell, hsymbols, detect_spell_padded hgs, fill_fill, ← spell]

theorem decodeDetected_spell (d : Dialect) (hgs : IsGroups gs) :
    decodeDetected (spell d gs) = .ok (bytes gs) := by
  have hutf8 := utf8_spell (d := Dialect.detect (spell d gs)) hgs
  rw [spell_detect_spell hgs] at hutf8
  rw [decodeDetected, hutf8, decode_textBytes _ hgs]

/-- A text is read in the dialect that it shows if it spells groups in any dialect at all, and what
is read is what the groups make up. -/
theorem decodeDetected_eq_ok {cs : List Char} {data : List UInt8} :
    decodeDetected cs = .ok data ↔ ∃ d gs, IsGroups gs ∧ cs = spell d gs ∧ bytes gs = data := by
  constructor
  · intro h
    obtain ⟨gs, hgs, htext, hdata⟩ := exists_of_decode h
    refine ⟨Dialect.detect cs, gs, hgs, ?_, hdata⟩
    have hdecoded := Text.Utf8.decode?_encode cs
    rw [htext, ← utf8_spell hgs, Text.Utf8.decode?_encode] at hdecoded
    exact (Option.some.inj hdecoded).symm
  · rintro ⟨d, gs, hgs, rfl, rfl⟩
    exact decodeDetected_spell d hgs

end Spelling

section Writing

variable (d : Dialect) (data : List UInt8)

/-- The number of equals signs that a dialect adds. -/
def padding : Nat :=
  fill d.padded (groups data).length

theorem encode_eq_spell : encode d data = spell d (groups data) := by
  have hascii (c : Char) (hc : c ∈ (groups data).map (symbol d.urlSafe)) : c.toNat < 0x80 := by
    obtain ⟨g, hg, rfl⟩ := List.mem_map.1 hc
    exact symbol_ascii g (lt_of_mem_groups g hg) d.urlSafe
  have hsize : Text.Utf8.size ((groups data).map (symbol d.urlSafe)) = (groups data).length := by
    rw [Text.Utf8.size, Text.Utf8.encode_of_ascii hascii, List.length_map, List.length_map]
  rw [encode, spell, fill]
  split
  · rw [pad, hsize]
  · rw [List.replicate_zero, List.append_nil]

theorem encode_eq : encode d data =
    (groups data).map (symbol d.urlSafe) ++ List.replicate (padding d data) '=' :=
  encode_eq_spell d data

/-- Written bytes are symbols and equals signs. -/
theorem mem_encode {c : Char} (hc : c ∈ encode d data) :
    (∃ n < 64, symbol d.urlSafe n = c) ∨ c = '=' :=
  mem_spell (isGroups_groups data) (encode_eq_spell d data ▸ hc)

theorem ascii_of_mem_encode {c : Char} (hc : c ∈ encode d data) : c.toNat < 0x80 :=
  ascii_of_mem_spell (isGroups_groups data) (encode_eq_spell d data ▸ hc)

/-- Bytes read back from their text, in whatever dialect they were written. -/
theorem decodeDetected_encode : decodeDetected (encode d data) = .ok data := by
  rw [encode_eq_spell, decodeDetected_spell d (isGroups_groups data), bytes_groups]

/-- Bytes read back from their text in the dialect in which they were written. -/
theorem decode_encode : decode d (Text.Utf8.encode (encode d data)) = .ok data := by
  rw [encode_eq_spell, utf8_spell (isGroups_groups data),
    decode_textBytes d (isGroups_groups data), bytes_groups]

end Writing

/-- A text reads back from its Base64. -/
theorem decodeText?_encodeText (d : Dialect) (text : List Char) :
    decodeText? (encodeText d text) = some text := by
  rw [decodeText?, encodeText, decodeDetected_encode]
  exact Text.Utf8.decode?_encode text

theorem encodeText_ne_nil (d : Dialect) {text : List Char} (h : text ≠ []) :
    encodeText d text ≠ [] := by
  intro hnil
  have hdecode := decodeText?_encodeText d text
  have hempty : decodeText? [] = some [] := by decide
  rw [hnil, hempty] at hdecode
  exact h (Option.some.inj hdecode).symm

/-- The bytes of Base64: the symbols of an alphabet and the padding. -/
def IsBase64 (urlSafe : Bool) (b : UInt8) : Prop :=
  b = padByte ∨ value? urlSafe b ≠ none

instance (urlSafe : Bool) (b : UInt8) : Decidable (IsBase64 urlSafe b) :=
  inferInstanceAs (Decidable (_ ∨ _))

/-- A text that is read as Base64 holds nothing else. -/
theorem isBase64_of_decode {d : Dialect} {text data : List UInt8} (h : decode d text = .ok data) :
    ∀ b ∈ text, IsBase64 d.urlSafe b := by
  obtain ⟨gs, hgs, rfl, -⟩ := exists_of_decode h
  intro b hb
  rw [textBytes, List.mem_append] at hb
  rcases hb with hb | hb
  · obtain ⟨g, hg, rfl⟩ := List.mem_map.1 hb
    exact .inr (by rw [value?_symbolByte g (hgs.lt g hg)]; nofun)
  · exact .inl (List.eq_of_mem_replicate hb)

/-- A text that has been padded can be read without padding only where none was needed, and then it
can be read with padding as well. -/
theorem decode_pad_of_bare {urlSafe : Bool} {cs : List Char} {data : List UInt8}
    (h : decode ⟨urlSafe, false⟩ (Text.Utf8.encode (pad cs)) = .ok data) :
    decode ⟨urlSafe, true⟩ (Text.Utf8.encode (pad cs)) = .ok data := by
  obtain ⟨gs, hgs, htext, rfl⟩ := exists_of_decode h
  have hfour : Text.Utf8.size (pad cs) % 4 = 0 := by
    have hsigns (n : Nat) : Text.Utf8.size (List.replicate n '=') = n := by
      rw [Text.Utf8.size_of_ascii fun _ hc => List.eq_of_mem_replicate hc ▸ by decide,
        List.length_replicate]
    rw [pad, Text.Utf8.size_append, hsigns]
    omega
  have hfill : fill true gs.length = 0 := by
    rw [Text.Utf8.size, htext, length_textBytes] at hfour
    have hlength : gs.length % 4 = 0 := hfour
    rw [fill, if_pos rfl, hlength]
  have hpadded : textBytes urlSafe gs (fill false gs.length) =
      textBytes urlSafe gs (fill true gs.length) := by
    rw [hfill]
    rfl
  rw [htext, hpadded]
  exact decode_textBytes ⟨urlSafe, true⟩ hgs

theorem length_groups_le (data : List UInt8) : 3 * (groups data).length ≤ 4 * data.length + 2 := by
  induction data using groups.induct with
  | case1 a b c rest ih =>
      rw [groups]
      simp only [List.length_cons]
      omega
  | case2 a b => exact Nat.le_succ 9
  | case3 a => exact Nat.le_refl 6
  | case4 => exact Nat.zero_le 2

theorem length_bytes_le (gs : List Nat) : 4 * (bytes gs).length ≤ 3 * gs.length := by
  induction gs using bytes.induct with
  | case1 a b c d rest ih =>
      rw [bytes]
      simp only [List.length_cons]
      omega
  | case2 a b c => exact Nat.le_succ 8
  | case3 a b => exact Nat.le_add_right 4 2
  | case4 gs hfour hthree htwo =>
      rw [bytes]
      · exact Nat.zero_le _
      · exact hfour
      · exact hthree
      · exact htwo

/-- Four symbols make up three bytes at most. -/
theorem length_of_decode {d : Dialect} {text data : List UInt8} (h : decode d text = .ok data) :
    4 * data.length ≤ 3 * text.length := by
  obtain ⟨gs, -, rfl, rfl⟩ := exists_of_decode h
  have hbytes := length_bytes_le gs
  rw [length_textBytes]
  omega

/-- A text takes at most three quarters of the Base64 that it is read from. -/
theorem size_of_decodeText? {cs ds : List Char} (h : decodeText? cs = some ds) :
    4 * Text.Utf8.size ds ≤ 3 * Text.Utf8.size cs := by
  rw [decodeText?] at h
  split at h
  · rename_i data hdata
    have hbytes : 4 * data.length ≤ 3 * Text.Utf8.size cs := length_of_decode hdata
    have htext := Text.Utf8.size_le_of_decode? h
    omega
  · cases h

theorem size_encodeText (d : Dialect) (cs : List Char) :
    Text.Utf8.size (encodeText d cs) =
      (groups (Text.Utf8.encode cs)).length + padding d (Text.Utf8.encode cs) := by
  rw [encodeText, encode_eq_spell, Text.Utf8.size, utf8_spell (isGroups_groups _), length_textBytes,
    padding]

/-- Without padding, three bytes take four symbols and a rest of them one more than itself. -/
theorem size_encodeText_le (urlSafe : Bool) (cs : List Char) :
    3 * Text.Utf8.size (encodeText ⟨urlSafe, false⟩ cs) ≤ 4 * Text.Utf8.size cs + 2 := by
  rw [size_encodeText]
  exact length_groups_le _

/-- Padding takes the place of the two bytes that a rest may lack. -/
theorem size_encodeText_padded_le (urlSafe : Bool) (cs : List Char) :
    3 * Text.Utf8.size (encodeText ⟨urlSafe, true⟩ cs) ≤ 4 * Text.Utf8.size cs + 8 := by
  have hgroups := length_groups_le (Text.Utf8.encode cs)
  have hrest := length_groups_mod (Text.Utf8.encode cs)
  rw [size_encodeText, padding, fill, if_pos rfl, Text.Utf8.size]
  omega

end LinkSieve.Base64
