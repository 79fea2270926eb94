import LinkSieve.Proofs.Text.Lowercase
import LinkSieve.Proofs.Text.Percent
import LinkSieve.Text.Label

/-!
# Labels behind layers of escapes

A round of decoding either settles a text, in that a second round changes nothing, or makes it
shorter. So decoding comes to an end within its fuel, and a label is decoded to the same text
whether or not a round has been made beforehand. A round takes off exactly one layer of escapes;
hence no number of layers, and no choice of what they escape, makes a difference to what a label
is decoded to.

## Implementation notes

A layer is a relation between the text and its escaped form, since it leaves open which characters
it escapes and in which case it writes each hexadecimal digit.
-/

namespace LinkSieve.Text.Label

/-- A text with spaces for its plus signs. -/
def spaced (cs : List Char) : List Char :=
  cs.map fun c => if c = '+' then ' ' else c

theorem decodeOnce_eq (cs : List Char) :
    decodeOnce cs = Utf8.decodeLossy (Percent.decode (Utf8.encode (spaced cs))) := rfl

theorem spaced_append (as bs : List Char) : spaced (as ++ bs) = spaced as ++ spaced bs :=
  List.map_append

theorem spaced_eq_self {cs : List Char} (h : '+' ∉ cs) : spaced cs = cs := by
  apply map_eq_self
  intro c hc
  have hne : c ≠ '+' := fun heq => h (heq ▸ hc)
  rw [if_neg hne]

theorem plus_not_mem_spaced (cs : List Char) : '+' ∉ spaced cs := by
  intro hmem
  obtain ⟨c, -, hc⟩ := List.mem_map.1 hmem
  split at hc
  · exact absurd hc (by decide)
  · contradiction

theorem spaced_spaced (cs : List Char) : spaced (spaced cs) = spaced cs :=
  spaced_eq_self (plus_not_mem_spaced cs)

/-- A round without an escape to decode only changes plus signs; any other one makes the text
shorter. -/
theorem decodeOnce_eq_spaced_or_shorter (cs : List Char) :
    decodeOnce cs = spaced cs ∨ (decodeOnce cs).length + 2 ≤ cs.length := by
  have hlength : (spaced cs).length = cs.length := List.length_map _
  rw [decodeOnce_eq]
  rcases Percent.length_scanFrom_decode Utf8.isInner_none (spaced cs) with ⟨hsame, -⟩ | hshorter
  · left
    rw [hsame, Utf8.decodeLossy_encode]
  · right
    rw [Utf8.decodeLossy, List.length_map, ← hlength]
    exact hshorter

/-- A round settles a text or makes it shorter. -/
theorem decodeOnce_settles_or_shorter (cs : List Char) :
    decodeOnce (decodeOnce cs) = decodeOnce cs ∨ (decodeOnce cs).length + 2 ≤ cs.length := by
  rcases decodeOnce_eq_spaced_or_shorter cs with hspaced | hshorter
  · left
    calc
      decodeOnce (decodeOnce cs) = decodeOnce (spaced cs) := by rw [hspaced]
      _ = decodeOnce cs := by rw [decodeOnce_eq, spaced_spaced, ← decodeOnce_eq]
  · exact .inr hshorter

theorem decodeRounds_succ (fuel : Nat) (cs : List Char) :
    decodeRounds (fuel + 1) cs =
      if decodeOnce cs = cs then cs else decodeRounds fuel (decodeOnce cs) := rfl

theorem decodeRounds_of_settled {cs : List Char} (h : decodeOnce cs = cs) (fuel : Nat) :
    decodeRounds fuel cs = cs := by
  cases fuel with
  | zero => rfl
  | succ fuel => rw [decodeRounds_succ, if_pos h]

/-- Any two amounts of fuel that exceed the length by two lead to the same text. -/
theorem decodeRounds_eq_of_le {cs : List Char} {m n : Nat} (hm : cs.length + 2 ≤ m)
    (hn : cs.length + 2 ≤ n) : decodeRounds m cs = decodeRounds n cs := by
  induction m generalizing cs n with
  | zero => omega
  | succ m ih =>
      obtain ⟨k, rfl⟩ : ∃ k, n = k + 1 := ⟨n - 1, by omega⟩
      rw [decodeRounds_succ, decodeRounds_succ]
      split
      · rfl
      · rcases decodeOnce_settles_or_shorter cs with hsettled | hshorter
        · rw [decodeRounds_of_settled hsettled, decodeRounds_of_settled hsettled]
        · exact ih (by omega) (by omega)

/-- A round made beforehand makes no difference. -/
theorem decode_decodeOnce (cs : List Char) : decode (decodeOnce cs) = decode cs := by
  by_cases hfixed : decodeOnce cs = cs
  · rw [hfixed]
  · have hround : decode cs = decodeRounds (cs.length + 1) (decodeOnce cs) := by
      rw [decode, decodeRounds_succ, if_neg hfixed]
    rw [hround]
    rcases decodeOnce_settles_or_shorter cs with hsettled | hshorter
    · rw [decode, decodeRounds_of_settled hsettled, decodeRounds_of_settled hsettled]
    · exact decodeRounds_eq_of_le (Nat.le_refl _) (by omega)

/-- Decoding comes to an end: another round changes nothing. -/
theorem decodeOnce_decode (cs : List Char) : decodeOnce (decode cs) = decode cs := by
  induction hlength : cs.length using Nat.strongRecOn generalizing cs with
  | ind length ih =>
      subst hlength
      rw [← decode_decodeOnce]
      rcases decodeOnce_settles_or_shorter cs with hsettled | hshorter
      · rw [decode, decodeRounds_of_settled hsettled, hsettled]
      · exact ih _ (by omega) _ rfl

/-- A round would change a plus sign, so none is left behind all rounds. -/
theorem plus_not_mem_decode (cs : List Char) : '+' ∉ decode cs := by
  have hsettled := decodeOnce_decode cs
  rcases decodeOnce_eq_spaced_or_shorter (decode cs) with hspaced | hshorter
  · rw [← hsettled, hspaced]
    exact plus_not_mem_spaced (decode cs)
  · rw [hsettled] at hshorter
    omega

/-- A hexadecimal digit of a number below sixteen, a letter in either case. -/
def Spells (c : Char) (n : Nat) : Prop :=
  c = Percent.hexDigit n ∨ c = lowerAscii (Percent.hexDigit n)

/-- Bytes as escapes. -/
inductive Escapes : List UInt8 → List Char → Prop where
  | nil : Escapes [] []
  | cons {b : UInt8} {bytes : List UInt8} {high low : Char} {es : List Char} :
      Spells high (b.toNat / 16) → Spells low (b.toNat % 16) → Escapes bytes es →
      Escapes (b :: bytes) ('%' :: high :: low :: es)

/-- One layer of escapes on a text: percent and plus signs are escaped, and of all other characters
those that one likes. -/
inductive Layer : List Char → List Char → Prop where
  | nil : Layer [] []
  | keep {c : Char} {cs ds : List Char} :
      c ≠ '%' → c ≠ '+' → Layer cs ds → Layer (c :: cs) (c :: ds)
  | escape {c : Char} {es cs ds : List Char} :
      Escapes (String.utf8EncodeChar c) es → Layer cs ds → Layer (c :: cs) (es ++ ds)

/-- A number of layers of escapes on a text, one on top of the other. -/
inductive Layers : Nat → List Char → List Char → Prop where
  | none (cs : List Char) : Layers 0 cs cs
  | more {n : Nat} {cs ds es : List Char} : Layer cs ds → Layers n ds es → Layers (n + 1) cs es

/-- What a digit is, whichever its case: an ASCII character with the value of the number. -/
theorem spells_spec {n : Nat} (hn : n < 16) {c : Char} (h : Spells c n) :
    c.toNat < 0x80 ∧ c ≠ '+' ∧
      Percent.hexValue? (UInt8.ofNat c.toNat) = some (UInt8.ofNat n) := by
  have hupper : ∀ n < 16, (Percent.hexDigit n).toNat < 0x80 ∧ Percent.hexDigit n ≠ '+' ∧
      Percent.hexValue? (UInt8.ofNat (Percent.hexDigit n).toNat) = some (UInt8.ofNat n) := by
    decide
  have hlower : ∀ n < 16, (lowerAscii (Percent.hexDigit n)).toNat < 0x80 ∧
      lowerAscii (Percent.hexDigit n) ≠ '+' ∧
      Percent.hexValue? (UInt8.ofNat (lowerAscii (Percent.hexDigit n)).toNat) =
        some (UInt8.ofNat n) := by
    decide
  rcases h with rfl | rfl
  · exact hupper n hn
  · exact hlower n hn

theorem plus_not_mem_escapes {bytes : List UInt8} {es : List Char} (h : Escapes bytes es) :
    '+' ∉ es := by
  induction h with
  | nil => exact List.not_mem_nil
  | @cons b bytes high low es hhigh hlow _ ih =>
      have hb : b.toNat < 256 := b.toNat_lt
      have hne := (spells_spec (by omega) hhigh).2.1
      have hne' := (spells_spec (by omega) hlow).2.1
      simp [Ne.symm hne, Ne.symm hne', ih]

theorem decode_escapes {bytes : List UInt8} {es : List Char} (h : Escapes bytes es)
    (rest : List UInt8) :
    Percent.decode (Utf8.encode es ++ rest) = bytes ++ Percent.decode rest := by
  induction h with
  | nil => rfl
  | @cons b bytes high low es hhigh hlow _ ih =>
      have hb : b.toNat < 256 := b.toNat_lt
      obtain ⟨hascii, -, hvalue⟩ := spells_spec (by omega) hhigh
      obtain ⟨hascii', -, hvalue'⟩ := spells_spec (by omega) hlow
      have hpair : Percent.hexPair? (UInt8.ofNat high.toNat) (UInt8.ofNat low.toNat) = some b := by
        rw [← Percent.hexPair?_hexDigit b, Percent.hexPair?, hvalue, hvalue', Percent.hexPair?,
          Percent.hexValue?_hexDigit _ (by omega), Percent.hexValue?_hexDigit _ (by omega)]
      have hpercent : String.utf8EncodeChar '%' = [0x25] := rfl
      rw [Utf8.encode_cons, Utf8.encode_cons, Utf8.encode_cons, hpercent,
        Utf8.utf8EncodeChar_of_ascii hascii, Utf8.utf8EncodeChar_of_ascii hascii']
      simp only [List.cons_append, List.nil_append]
      rw [Percent.decode, hpair]
      exact congrArg (b :: ·) ih

theorem Layer.plus_not_mem {cs ds : List Char} (h : Layer cs ds) : '+' ∉ ds := by
  induction h with
  | nil => exact List.not_mem_nil
  | keep _ hplus _ ih => exact List.not_mem_cons_of_ne_of_not_mem (Ne.symm hplus) ih
  | escape hes _ ih => exact fun hmem => (List.mem_append.1 hmem).elim (plus_not_mem_escapes hes) ih

theorem Layer.percent_decode {cs ds : List Char} (h : Layer cs ds) :
    Percent.decode (Utf8.encode ds) = Utf8.encode cs := by
  induction h with
  | nil => rfl
  | keep hpercent _ _ ih =>
      rw [Utf8.encode_cons, Utf8.encode_cons,
        Percent.decode_append_of_not_mem (Percent.percent_not_mem_utf8EncodeChar hpercent), ih]
  | escape hes _ ih => rw [Utf8.encode_append, decode_escapes hes, ih, Utf8.encode_cons]

/-- A round takes off one layer. -/
theorem Layer.decodeOnce_eq {cs ds : List Char} (h : Layer cs ds) : decodeOnce ds = cs := by
  rw [Label.decodeOnce_eq, spaced_eq_self h.plus_not_mem, h.percent_decode,
    Utf8.decodeLossy_encode]

/-- Layers of escapes make no difference to the text behind them. -/
theorem Layers.decode_eq {n : Nat} {cs ds : List Char} (h : Layers n cs ds) :
    decode ds = decode cs := by
  induction h with
  | none => rfl
  | @more n cs ds es hlayer _ ih =>
      calc
        decode es = decode ds := ih
        _ = decode (decodeOnce ds) := (decode_decodeOnce ds).symm
        _ = decode cs := by rw [hlayer.decodeOnce_eq]

theorem escapes_ne_nil {bytes : List UInt8} {es : List Char} (h : Escapes bytes es)
    (hne : bytes ≠ []) : es ≠ [] := by
  cases h with
  | nil => exact absurd rfl hne
  | cons => exact List.cons_ne_nil _ _

theorem Layer.eq_nil_iff {cs ds : List Char} (h : Layer cs ds) : ds = [] ↔ cs = [] := by
  cases h with
  | nil => exact Iff.rfl
  | keep => simp
  | escape hes _ => simp [escapes_ne_nil hes String.utf8EncodeChar_ne_nil]

/-- A text behind layers is empty exactly if it was empty before. -/
theorem Layers.eq_nil_iff {n : Nat} {cs ds : List Char} (h : Layers n cs ds) :
    ds = [] ↔ cs = [] := by
  induction h with
  | none => exact Iff.rfl
  | more hlayer _ ih => exact ih.trans hlayer.eq_nil_iff

theorem decodeOnce_of_not_mem {cs : List Char} (h : '%' ∉ cs) : decodeOnce cs = spaced cs := by
  have hbyte : (0x25 : UInt8) ∉ Utf8.encode (spaced cs) := by
    rw [Utf8.encode, List.mem_flatMap]
    rintro ⟨c, hc, hmem⟩
    obtain ⟨d, hd, rfl⟩ := List.mem_map.1 hc
    refine Percent.percent_not_mem_utf8EncodeChar ?_ hmem
    split
    · decide
    · rintro rfl
      exact h hd
  have hdecode := Percent.decode_append_of_not_mem hbyte []
  rw [List.append_nil, Percent.decode, List.append_nil] at hdecode
  rw [decodeOnce_eq, hdecode, Utf8.decodeLossy_encode]

/-- Without a percent sign there is no escape, and the label is the text with its plus signs for
spaces. -/
theorem decode_of_not_mem {cs : List Char} (h : '%' ∉ cs) : decode cs = spaced cs := by
  have hround := decodeOnce_of_not_mem h
  have hsettled : decodeOnce (spaced cs) = spaced cs := by
    calc
      decodeOnce (spaced cs) = decodeOnce cs := by
        rw [decodeOnce_eq, spaced_spaced, ← decodeOnce_eq]
      _ = spaced cs := hround
  rw [← decode_decodeOnce, hround, decode, decodeRounds_of_settled hsettled]

/-- Neither a plus sign nor a space has case, and neither is passed over. -/
theorem startsCased_spaced (cs : List Char) : startsCased (spaced cs) = startsCased cs := by
  apply startsCased_map
  · intro c
    split
    · subst_vars
      decide +kernel
    · rfl
  · intro c
    split
    · subst_vars
      decide +kernel
    · rfl

theorem endsWord_spaced (before rest : List Char) :
    endsWord (spaced before) (spaced rest) = endsWord before rest := by
  rw [endsWord, startsCased_spaced, startsCased_spaced, endsWord]

/-- The sigmas of a part without plus signs keep their form when the text around it is spaced. -/
theorem keepsSigmas_spaced {before part after : List Char} (hplus : '+' ∉ part)
    (h : KeepsSigmas before.reverse part after) :
    KeepsSigmas (spaced before).reverse part (spaced after) := by
  rintro done rest rfl
  have hdone : '+' ∉ done.reverse := by
    rw [List.mem_reverse]
    exact mt (List.mem_append_left _) hplus
  have hrest : '+' ∉ rest := fun hmem =>
    hplus (List.mem_append_right _ (List.mem_cons_of_mem _ hmem))
  have hreverse : (spaced before).reverse = spaced before.reverse := List.map_reverse.symm
  calc
    endsWord (done.reverse ++ (spaced before).reverse) (rest ++ spaced after) =
        endsWord (spaced (done.reverse ++ before.reverse)) (spaced (rest ++ after)) := by
      rw [spaced_append, spaced_append, spaced_eq_self hdone, spaced_eq_self hrest, hreverse]
    _ = endsWord (done.reverse ++ before.reverse) (rest ++ after) := endsWord_spaced _ _
    _ = endsWord done.reverse rest := h done rest rfl

end LinkSieve.Text.Label
