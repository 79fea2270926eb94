import LinkSieve.Proofs.Base64
import LinkSieve.Proofs.Text.Lowercase

/-!
# Which texts are Base64

A text need not show the dialect that wrote it, but the dialect that it shows would have written the
same text, so nothing that any dialect writes is misread. Besides these texts only those are read
whose last symbol has bits set that no byte takes up. Altogether they are the texts with symbols of
one alphabet, none of them alone in its block, and with padding that is missing or fills up the last
block.

## Implementation notes

The grammar is said of the characters of a text, and what a text is read as is said of bits: symbols
stand for six of them and bytes for eight. Neither mentions groups or dialects.
-/

namespace LinkSieve.Base64

/-- Bytes read back from their text whatever dialect writes it. The dialect that the text shows
writes it too, and no dialect writes other bytes in the same way. -/
theorem decodeDetected_encode_dialects (d : Dialect) (data : List UInt8) :
    decodeDetected (encode d data) = .ok data ∧
      encode (Dialect.detect (encode d data)) data = encode d data ∧
      ∀ d' other, encode d' other = encode d data → other = data := by
  have hread := decodeDetected_encode d data
  refine ⟨hread, ?_, fun d' other hsame => ?_⟩
  · rw [encode_eq_spell d data, encode_eq_spell, spell_detect_spell (isGroups_groups data)]
  · have hother := decodeDetected_encode d' other
    rw [hsame, hread] at hother
    exact (Except.ok.inj hother).symm

/-- A letter in the URL-safe dialect shows the standard one, and two bytes that the alphabets write
differently show the one that wrote them. -/
theorem decodeDetected_encode_dialects_url :
    (Dialect.detect (encode .url [0x61]) = .standard ∧
      decodeDetected "YQ==".toList = .ok [0x61]) ∧
    Dialect.detect (encode .urlBare [0xFB, 0xFF]) = .urlBare ∧
      decodeDetected "-_8".toList = .ok [0xFB, 0xFF] :=
  ⟨⟨rfl, (decodeDetected_encode_dialects .url [0x61]).1⟩, rfl,
    (decodeDetected_encode_dialects .urlBare [0xFB, 0xFF]).1⟩

/-- The two symbols that an alphabet does not share with the other one. -/
def marks (urlSafe : Bool) : List Char :=
  if urlSafe then ['-', '_'] else ['+', '/']

/-- The symbols of an alphabet. -/
def IsSymbol (urlSafe : Bool) (c : Char) : Prop :=
  c.isAlphanum = true ∨ c ∈ marks urlSafe

instance (urlSafe : Bool) (c : Char) : Decidable (IsSymbol urlSafe c) :=
  inferInstanceAs (Decidable (_ ∨ _))

/-- The six bits of a symbol, as a number: the capitals come first, then the small letters, the
digits and the two marks. -/
def sextet (c : Char) : Nat :=
  if c.isUpper then c.toNat - 'A'.toNat
  else if c.isLower then 26 + (c.toNat - 'a'.toNat)
  else if c.isDigit then 52 + (c.toNat - '0'.toNat)
  else if c = '+' ∨ c = '-' then 62
  else 63

/-- A text without the equals signs at its end. -/
def unpadded (cs : List Char) : List Char :=
  Text.trimEnd (· = '=') cs

/-- The number of equals signs at the end of a text. -/
def padCount (cs : List Char) : Nat :=
  cs.length - (unpadded cs).length

/-- The texts of Base64 in any dialect: symbols of one alphabet, not one more than fill their
blocks, and no padding, or at most two equals signs that fill up the last block. -/
structure IsGrammatical (cs : List Char) : Prop where
  symbols : (∀ c ∈ unpadded cs, IsSymbol false c) ∨ ∀ c ∈ unpadded cs, IsSymbol true c
  count : (unpadded cs).length % 4 ≠ 1
  padding : padCount cs = 0 ∨ (cs.length % 4 = 0 ∧ padCount cs ≤ 2)

theorem isSymbol_symbol : ∀ n < 64, ∀ urlSafe, IsSymbol urlSafe (symbol urlSafe n) := by
  decide

theorem sextet_symbol : ∀ n < 64, ∀ urlSafe, sextet (symbol urlSafe n) = n := by
  decide

/-- A symbol is the one that its alphabet has for its six bits. -/
theorem symbol_sextet {urlSafe : Bool} {c : Char} (h : IsSymbol urlSafe c) :
    sextet c < 64 ∧ symbol urlSafe (sextet c) = c := by
  have hascii : c.toNat < 0x80 := by
    rcases h with halnum | hmark
    · have hrange := Text.isAlphanum_iff.1 halnum
      omega
    · have hmarks : ∀ d ∈ marks urlSafe, d.toNat < 0x80 := by
        cases urlSafe <;> exact Text.forall_of_all (by decide)
      exact hmarks c hmark
  have hall : ∀ d : Char, d.toNat < 0x80 → ∀ u, IsSymbol u d →
      sextet d < 64 ∧ symbol u (sextet d) = d :=
    Text.forall_of_ofNat (by decide +kernel)
  exact hall c hascii urlSafe h

theorem eq_unpadded_append (cs : List Char) :
    cs = unpadded cs ++ List.replicate (padCount cs) '=' := by
  have hsplit : cs = unpadded cs ++ (cs.reverse.takeWhile (· = '=')).reverse := by
    rw [unpadded, Text.trimEnd, ← List.reverse_append, List.takeWhile_append_dropWhile,
      List.reverse_reverse]
  have hpads : (cs.reverse.takeWhile (· = '=')).reverse =
      List.replicate (padCount cs) '=' := by
    apply List.eq_replicate_iff.2
    constructor
    · have hlength := congrArg List.length hsplit
      rw [List.length_append] at hlength
      rw [padCount]
      omega
    · intro c hc
      exact of_decide_eq_true (List.all_eq_true.1 List.all_takeWhile c (List.mem_reverse.1 hc))
  rw [← hpads]
  exact hsplit

theorem length_eq_unpadded_add (cs : List Char) :
    cs.length = (unpadded cs).length + padCount cs := by
  have hlength := congrArg List.length (eq_unpadded_append cs)
  rwa [List.length_append, List.length_replicate] at hlength

section Grammar

variable {d : Dialect} {gs : List Nat}

theorem unpadded_spell (hgs : IsGroups gs) : unpadded (spell d gs) = gs.map (symbol d.urlSafe) := by
  have hsymbols : ∀ c ∈ gs.map (symbol d.urlSafe), decide (c = '=') = false := by
    intro c hc
    obtain ⟨g, hg, rfl⟩ := List.mem_map.1 hc
    exact decide_eq_false (symbol_ne_pad g (hgs.lt g hg) d.urlSafe)
  have hpads (n : Nat) : Text.trimEnd (· = '=') (List.replicate n '=') = [] := by
    apply List.reverse_eq_nil_iff.2
    apply Text.dropWhile_eq_nil
    intro c hc
    exact decide_eq_true (List.eq_of_mem_replicate (List.mem_reverse.1 hc))
  rw [unpadded, spell, Text.trimEnd_append hsymbols, hpads, List.append_nil]

theorem padCount_spell (hgs : IsGroups gs) : padCount (spell d gs) = fill d.padded gs.length := by
  have hlength := length_eq_unpadded_add (spell d gs)
  rw [unpadded_spell hgs, spell, List.length_append, List.length_replicate] at hlength
  exact (Nat.add_left_cancel hlength).symm

theorem isGrammatical_spell (hgs : IsGroups gs) : IsGrammatical (spell d gs) := by
  have hunpadded := unpadded_spell (d := d) hgs
  have hpads := padCount_spell (d := d) hgs
  have hcount : (unpadded (spell d gs)).length = gs.length := by
    rw [hunpadded, List.length_map]
  have hlength := length_eq_unpadded_add (spell d gs)
  have hmod := hgs.length
  constructor
  · have hsymbols : ∀ c ∈ unpadded (spell d gs), IsSymbol d.urlSafe c := by
      rw [hunpadded]
      intro c hc
      obtain ⟨g, hg, rfl⟩ := List.mem_map.1 hc
      exact isSymbol_symbol g (hgs.lt g hg) d.urlSafe
    cases hd : d.urlSafe with
    | false => exact .inl (hd ▸ hsymbols)
    | true => exact .inr (hd ▸ hsymbols)
  · rw [hcount]
    exact hmod
  · rw [fill] at hpads
    split at hpads
    · omega
    · exact .inl hpads

/-- A grammatical text spells the six bits of its symbols, in the dialect with their alphabet that
adds padding if there is any. -/
theorem exists_eq_spell {cs : List Char} (h : IsGrammatical cs) :
    ∃ d, IsGroups ((unpadded cs).map sextet) ∧ cs = spell d ((unpadded cs).map sextet) := by
  obtain ⟨urlSafe, hsymbols⟩ : ∃ urlSafe, ∀ c ∈ unpadded cs, IsSymbol urlSafe c :=
    h.symbols.elim (fun hall => ⟨false, hall⟩) fun hall => ⟨true, hall⟩
  have hmap : ((unpadded cs).map sextet).map (symbol urlSafe) = unpadded cs := by
    rw [List.map_map]
    calc (unpadded cs).map (symbol urlSafe ∘ sextet) = (unpadded cs).map id :=
          List.map_congr_left fun c hc => (symbol_sextet (hsymbols c hc)).2
      _ = unpadded cs := List.map_id _
  have hlength : ((unpadded cs).map sextet).length = (unpadded cs).length := List.length_map _
  refine ⟨⟨urlSafe, decide (padCount cs ≠ 0)⟩, ⟨?_, ?_⟩, ?_⟩
  · intro g hg
    obtain ⟨c, hc, rfl⟩ := List.mem_map.1 hg
    exact (symbol_sextet (hsymbols c hc)).1
  · rw [hlength]
    exact h.count
  · have hfill : fill (decide (padCount cs ≠ 0)) (unpadded cs).length = padCount cs := by
      have htotal := length_eq_unpadded_add cs
      have hpadding := h.padding
      rw [fill]
      split
      · rename_i hpadded
        have hsome := of_decide_eq_true hpadded
        omega
      · rename_i hbare
        have hnone : padCount cs = 0 := by simpa using hbare
        exact hnone.symm
    rw [spell, hmap, hlength, hfill]
    exact eq_unpadded_append cs

end Grammar

/-- The lowest bits of a number, the highest of them first. -/
def bits : Nat → Nat → List Bool
  | 0, _ => []
  | width + 1, n => bits width (n / 2) ++ [decide (n % 2 = 1)]

/-- The six bits of a symbol. -/
def symbolBits (c : Char) : List Bool :=
  bits 6 (sextet c)

/-- The eight bits of a byte. -/
def byteBits (b : UInt8) : List Bool :=
  bits 8 b.toNat

@[simp] theorem length_bits (width n : Nat) : (bits width n).length = width := by
  induction width generalizing n with
  | zero => rfl
  | succ width ih => rw [bits, List.length_append, ih, List.length_singleton]

theorem bits_add (m n a : Nat) : bits (m + n) a = bits m (a / 2 ^ n) ++ bits n (a % 2 ^ n) := by
  induction n generalizing a with
  | zero => simp [bits]
  | succ n ih =>
      have hhigh : a / 2 / 2 ^ n = a / 2 ^ (n + 1) := by
        rw [Nat.div_div_eq_div_mul, Nat.pow_succ']
      have hlow : a / 2 % 2 ^ n = a % 2 ^ (n + 1) / 2 := by
        rw [Nat.pow_succ', Nat.mod_mul_right_div_self]
      have hlast : a % 2 ^ (n + 1) % 2 = a % 2 := by
        rw [Nat.pow_succ', Nat.mod_mul_right_mod]
      rw [← Nat.add_assoc, bits, ih, hhigh, hlow, bits, hlast, List.append_assoc]

/-- A byte put together from a high and a low part has the bits of both. -/
theorem byteBits_ofNat (m n a b : Nat) (hbyte : m + n = 8) (ha : a < 2 ^ m) (hb : b < 2 ^ n) :
    byteBits (UInt8.ofNat (a * 2 ^ n + b)) = bits m a ++ bits n b := by
  have hpos : 0 < 2 ^ n := Nat.two_pow_pos n
  have hlt : a * 2 ^ n + b < 2 ^ 8 := by
    calc a * 2 ^ n + b < a * 2 ^ n + 2 ^ n := Nat.add_lt_add_left hb _
      _ = (a + 1) * 2 ^ n := (Nat.succ_mul a _).symm
      _ ≤ 2 ^ m * 2 ^ n := Nat.mul_le_mul_right _ ha
      _ = 2 ^ 8 := by rw [← Nat.pow_add, hbyte]
  have hhigh : (a * 2 ^ n + b) / 2 ^ n = a := by
    rw [Nat.mul_comm, Nat.mul_add_div hpos, Nat.div_eq_of_lt hb, Nat.add_zero]
  have hlow : (a * 2 ^ n + b) % 2 ^ n = b := by
    rw [Nat.mul_comm, Nat.mul_add_mod, Nat.mod_eq_of_lt hb]
  rw [byteBits, UInt8.toNat_ofNat_of_lt' hlt, ← hbyte, bits_add, hhigh, hlow]

/-- The bytes of groups take up their bits but for those of the last group that fill no byte. -/
theorem exists_flatMap_bits {gs : List Nat} (hgs : IsGroups gs) :
    ∃ unused, unused.length < 6 ∧ gs.flatMap (bits 6) = (bytes gs).flatMap byteBits ++ unused := by
  have hfirst (a b : Nat) (ha : a < 64) (hb : b < 64) :
      byteBits (UInt8.ofNat (a * 4 + b / 16)) = bits 6 a ++ bits 2 (b / 16) :=
    byteBits_ofNat 6 2 a (b / 16) rfl ha (by omega)
  have hsecond (b c : Nat) (hc : c < 64) :
      byteBits (UInt8.ofNat (b % 16 * 16 + c / 4)) = bits 4 (b % 16) ++ bits 4 (c / 4) :=
    byteBits_ofNat 4 4 (b % 16) (c / 4) rfl (by omega) (by omega)
  have hthird (c e : Nat) (he : e < 64) :
      byteBits (UInt8.ofNat (c % 4 * 64 + e)) = bits 2 (c % 4) ++ bits 6 e :=
    byteBits_ofNat 2 6 (c % 4) e rfl (by omega) he
  have hsplit2 (b : Nat) : bits 6 b = bits 2 (b / 16) ++ bits 4 (b % 16) := bits_add 2 4 b
  have hsplit4 (c : Nat) : bits 6 c = bits 4 (c / 4) ++ bits 2 (c % 4) := bits_add 4 2 c
  obtain ⟨hlt, hcount⟩ := hgs
  induction gs using bytes.induct with
  | case1 a b c e rest ih =>
      simp only [List.forall_mem_cons] at hlt
      obtain ⟨ha, hb, hc, he, hrest⟩ := hlt
      have hrestCount : rest.length % 4 ≠ 1 := by
        simp only [List.length_cons] at hcount
        omega
      obtain ⟨unused, hunused, htail⟩ := ih hrest hrestCount
      refine ⟨unused, hunused, ?_⟩
      simp only [bytes, List.flatMap_cons, htail, hfirst a b ha hb, hsecond b c hc, hthird c e he,
        hsplit2 b, hsplit4 c, List.append_assoc]
  | case2 a b c =>
      simp only [List.forall_mem_cons] at hlt
      obtain ⟨ha, hb, hc, -⟩ := hlt
      refine ⟨bits 2 (c % 4), by simp, ?_⟩
      simp only [bytes, List.flatMap_cons, List.flatMap_nil, hfirst a b ha hb, hsecond b c hc,
        hsplit2 b, hsplit4 c, List.append_assoc, List.append_nil]
  | case3 a b =>
      simp only [List.forall_mem_cons] at hlt
      obtain ⟨ha, hb, -⟩ := hlt
      refine ⟨bits 4 (b % 16), by simp, ?_⟩
      simp only [bytes, List.flatMap_cons, List.flatMap_nil, hfirst a b ha hb, hsplit2 b,
        List.append_assoc, List.append_nil]
  | case4 gs hfour hthree htwo =>
      obtain _ | ⟨a, _ | ⟨b, _ | ⟨c, _ | ⟨e, rest⟩⟩⟩⟩ := gs
      · exact ⟨[], by simp, rfl⟩
      · exact absurd rfl hcount
      · exact absurd rfl (htwo a b)
      · exact absurd rfl (hthree a b c)
      · exact absurd rfl (hfour a b c e rest)

/-- The texts that are read as Base64 are those that the grammar describes, and the bytes that are
read take up the bits of the symbols but for those of the last symbol that fill no byte. -/
theorem decodeDetected_accepts (cs : List Char) :
    ((∃ data, decodeDetected cs = .ok data) ↔ IsGrammatical cs) ∧
      ∀ data, decodeDetected cs = .ok data → ∃ unused, unused.length < 6 ∧
        (unpadded cs).flatMap symbolBits = data.flatMap byteBits ++ unused := by
  refine ⟨⟨?_, ?_⟩, ?_⟩
  · rintro ⟨data, hdata⟩
    obtain ⟨d, gs, hgs, rfl, -⟩ := decodeDetected_eq_ok.1 hdata
    exact isGrammatical_spell hgs
  · intro h
    obtain ⟨d, hgs, hspell⟩ := exists_eq_spell h
    exact ⟨_, decodeDetected_eq_ok.2 ⟨d, _, hgs, hspell, rfl⟩⟩
  · intro data hdata
    obtain ⟨d, gs, hgs, rfl, rfl⟩ := decodeDetected_eq_ok.1 hdata
    obtain ⟨unused, hunused, hbits⟩ := exists_flatMap_bits hgs
    refine ⟨unused, hunused, ?_⟩
    rw [← hbits, unpadded_spell hgs, List.flatMap_map]
    apply List.flatMap_congr
    intro g hg
    exact congrArg (bits 6) (sextet_symbol g (hgs.lt g hg) d.urlSafe)

/-- A last symbol with bits set that no byte takes up is read, and symbols of both alphabets are
not. -/
theorem decodeDetected_accepts_unused :
    (IsGrammatical "-_9".toList ∧ ∃ unused, unused.length < 6 ∧
      "-_9".toList.flatMap symbolBits = [0xFB, 0xFF].flatMap byteBits ++ unused) ∧
    ¬∃ data, decodeDetected "ab+_".toList = .ok data :=
  ⟨⟨(decodeDetected_accepts "-_9".toList).1.1 ⟨[0xFB, 0xFF], rfl⟩,
      (decodeDetected_accepts "-_9".toList).2 [0xFB, 0xFF] rfl⟩,
    fun h => ((decodeDetected_accepts "ab+_".toList).1.1 h).symbols.elim
      (fun hall => absurd (hall '_' (by decide)) (by decide))
      fun hall => absurd (hall '+' (by decide)) (by decide)⟩

end LinkSieve.Base64
