import LinkSieve.Proofs.Decimal.Digits
import LinkSieve.Proofs.Text.Label

/-!
# Where the decoding of a label comes to rest

A round of decoding leaves a text as it is exactly if the text holds neither a plus sign nor an
escape. From any other text, rounds that each change it lead to such a one. The length of the text
bounds their number, and none of them makes it longer. They are counted by a relation that knows of
no fuel, so that decoding within its fuel is seen to be decoding without any.

## Implementation notes

A round can turn one escape into a character of three bytes, and it can bring about new escapes and
new plus signs. So neither bytes nor escapes are counted but characters, of which a round takes at
least two away unless it is the last one.
-/

namespace LinkSieve.Text

namespace Percent

/-- Whether a percent sign with two hexadecimal digits behind it stands in a text. -/
def HoldsEscape (cs : List Char) : Prop :=
  ∃ a b, Decimal.isDigit 16 a = true ∧ Decimal.isDigit 16 b = true ∧ ['%', a, b] <:+: cs

/-- The digits of escapes are those of base sixteen. -/
theorem isSome_digit? (c : Char) : (digit? c).isSome = Decimal.isDigit 16 c := by
  have hall : ∀ c : Char, c.toNat < 0x80 → (digit? c).isSome = Decimal.isDigit 16 c :=
    forall_of_ofNat (by decide)
  by_cases hascii : c.toNat < 0x80
  · exact hall c hascii
  · have hdigit : Decimal.isDigit 16 c = false := by
      rw [Bool.eq_false_iff]
      intro h
      have hrange := isAlphanum_iff.1 (Decimal.isAlphanum_of_isDigit h)
      omega
    rw [digit?, if_neg hascii, hdigit]
    rfl

theorem HoldsEscape.cons {cs : List Char} (h : HoldsEscape cs) (c : Char) :
    HoldsEscape (c :: cs) := by
  obtain ⟨a, b, ha, hb, hinfix⟩ := h
  exact ⟨a, b, ha, hb, List.infix_cons hinfix⟩

theorem holdsEscape_of_takeEscape? {cs : List Char} {found : UInt8 × List Char}
    (h : takeEscape? cs = some found) : HoldsEscape ('%' :: cs) := by
  obtain ⟨byte, rest⟩ := found
  obtain ⟨a, b, high, low, rfl, ha, hb, -⟩ := takeEscape?_eq_some h
  refine ⟨a, b, ?_, ?_, (List.prefix_append ['%', a, b] rest).isInfix⟩
  · rw [← isSome_digit?, ha, Option.isSome_some]
  · rw [← isSome_digit?, hb, Option.isSome_some]

/-- Decoding makes bytes fewer that an escape stands among, wherever it stands. -/
theorem length_decode_lt {a b byte : UInt8} (hpair : hexPair? a b = some byte)
    (before after : List UInt8) :
    (decode (before ++ 0x25 :: a :: b :: after)).length <
      (before ++ 0x25 :: a :: b :: after).length := by
  generalize hbytes : before ++ 0x25 :: a :: b :: after = bytes
  induction bytes using decode.induct generalizing before with
  | case1 x y rest other hother ih =>
      have hrest := length_decode_le rest
      rw [decode, hother]
      simp only [List.length_cons]
      omega
  | case2 x y rest hnone ih =>
      rw [decode, hnone]
      cases before with
      | nil =>
          obtain ⟨rfl, rfl, -⟩ : a = x ∧ b = y ∧ after = rest := by simpa using hbytes
          rw [hpair] at hnone
          cases hnone
      | cons c before => exact Nat.succ_lt_succ (ih before (List.cons.inj hbytes).2)
  | case3 c rest hno ih =>
      rw [decode]
      · cases before with
        | nil =>
            obtain ⟨hc, hrest⟩ := List.cons.inj hbytes
            exact absurd hrest.symm (hno a b after hc.symm)
        | cons d before => exact Nat.succ_lt_succ (ih before (List.cons.inj hbytes).2)
      · exact hno
  | case4 => simp at hbytes

/-- The bytes of a text become fewer if it holds an escape. -/
theorem HoldsEscape.length_decode_lt {cs : List Char} (h : HoldsEscape cs) :
    (decode (Utf8.encode cs)).length < (Utf8.encode cs).length := by
  obtain ⟨a, b, ha, hb, before, after, rfl⟩ := h
  rw [← isSome_digit?, Option.isSome_iff_exists] at ha hb
  obtain ⟨high, hhigh⟩ := ha
  obtain ⟨low, hlow⟩ := hb
  obtain ⟨hform, hhigh⟩ := digit?_eq_some hhigh
  obtain ⟨hform', hlow⟩ := digit?_eq_some hlow
  have hpercent : String.utf8EncodeChar '%' = [0x25] := rfl
  have hpair : hexPair? (UInt8.ofNat a.toNat) (UInt8.ofNat b.toNat) = some (high * 16 + low) := by
    rw [hexPair?, hhigh, hlow]
    rfl
  have hbytes : Utf8.encode (before ++ ['%', a, b] ++ after) = Utf8.encode before ++
      0x25 :: UInt8.ofNat a.toNat :: UInt8.ofNat b.toNat :: Utf8.encode after := by
    simp only [Utf8.encode_append, Utf8.encode_cons, hpercent, hform, hform', List.append_assoc,
      List.cons_append, List.nil_append]
  rw [hbytes]
  exact Percent.length_decode_lt hpair _ _

/-- Decoding leaves exactly those texts as they are that hold no escape. -/
theorem decode_encode_eq_self_iff {cs : List Char} :
    decode (Utf8.encode cs) = Utf8.encode cs ↔ ¬HoldsEscape cs := by
  constructor
  · intro hsame h
    have hshorter := h.length_decode_lt
    rw [hsame] at hshorter
    exact Nat.lt_irrefl _ hshorter
  · intro hno
    induction cs with
    | nil => rfl
    | cons c cs ih =>
        have hrest := ih fun h => hno (h.cons c)
        by_cases hc : c = '%'
        · subst hc
          have hdecode := decode_percent cs
          cases hescape : takeEscape? cs with
          | some found => exact absurd (holdsEscape_of_takeEscape? hescape) hno
          | none =>
              rw [hescape] at hdecode
              rw [hdecode, hrest]
              rfl
        · rw [decode_encode_cons_of_ne hc, hrest, Utf8.encode_cons]

end Percent

namespace Label

open Percent (HoldsEscape)

variable {n : Nat} {cs ds : List Char}

/-- A round that finds an escape takes at least two characters away. -/
theorem length_decodeOnce_of_holdsEscape (h : HoldsEscape (spaced cs)) :
    (decodeOnce cs).length + 2 ≤ cs.length := by
  have hlength : (spaced cs).length = cs.length := List.length_map _
  rw [decodeOnce_eq, Utf8.decodeLossy, List.length_map, ← hlength]
  rcases Percent.length_scanFrom_decode Utf8.isInner_none (spaced cs) with ⟨hsame, -⟩ | hshorter
  · exact absurd h (Percent.decode_encode_eq_self_iff.1 hsame)
  · exact hshorter

/-- A round that finds no escape only changes plus signs. -/
theorem decodeOnce_of_not_holdsEscape (h : ¬HoldsEscape (spaced cs)) :
    decodeOnce cs = spaced cs := by
  rw [decodeOnce_eq, Percent.decode_encode_eq_self_iff.2 h, Utf8.decodeLossy_encode]

/-- A round leaves exactly those texts as they are that hold neither a plus sign nor an escape. -/
theorem decodeOnce_eq_self_iff : decodeOnce cs = cs ↔ '+' ∉ cs ∧ ¬HoldsEscape cs := by
  constructor
  · intro hsettled
    have hescape : ¬HoldsEscape (spaced cs) := by
      intro h
      have hshorter := length_decodeOnce_of_holdsEscape h
      rw [hsettled] at hshorter
      omega
    have hspaced : spaced cs = cs := (decodeOnce_of_not_holdsEscape hescape).symm.trans hsettled
    rw [hspaced] at hescape
    exact ⟨hspaced ▸ plus_not_mem_spaced cs, hescape⟩
  · rintro ⟨hplus, hescape⟩
    have hspaced : spaced cs = cs := spaced_eq_self hplus
    rw [decodeOnce_of_not_holdsEscape (hspaced.symm ▸ hescape), hspaced]

/-- Rounds that each change the text, up to a text that a further round leaves as it is. -/
inductive Settles : Nat → List Char → List Char → Prop where
  | settled {cs : List Char} : decodeOnce cs = cs → Settles 0 cs cs
  | round {n : Nat} {cs ds : List Char} :
      decodeOnce cs ≠ cs → Settles n (decodeOnce cs) ds → Settles (n + 1) cs ds

theorem Settles.decodeOnce_eq (h : Settles n cs ds) : decodeOnce ds = ds := by
  induction h with
  | settled hsettled => exact hsettled
  | round _ _ ih => exact ih

/-- A round makes no text longer. -/
theorem length_decodeOnce_le (cs : List Char) : (decodeOnce cs).length ≤ cs.length := by
  rcases decodeOnce_eq_spaced_or_shorter cs with hspaced | hshorter
  · rw [hspaced]
    exact Nat.le_of_eq (List.length_map _)
  · omega

theorem Settles.length_le (h : Settles n cs ds) : ds.length ≤ cs.length := by
  induction h with
  | settled => exact Nat.le_refl _
  | round _ _ ih => exact Nat.le_trans ih (length_decodeOnce_le _)

/-- What decoding yields is where the rounds end. Two characters pay for each of them, since a round
that takes fewer away leaves nothing to do. -/
theorem exists_settles_decode (cs : List Char) :
    ∃ n, 2 * n ≤ cs.length + 1 ∧ Settles n cs (decode cs) := by
  induction hlength : cs.length using Nat.strongRecOn generalizing cs with
  | ind length ih =>
      subst hlength
      by_cases hfixed : decodeOnce cs = cs
      · refine ⟨0, Nat.zero_le _, ?_⟩
        rw [decode, decodeRounds_of_settled hfixed]
        exact .settled hfixed
      · rw [← decode_decodeOnce]
        rcases decodeOnce_settles_or_shorter cs with hsettled | hshorter
        · have hpos : 0 < cs.length := by
            rw [List.length_pos_iff]
            rintro rfl
            exact hfixed rfl
          refine ⟨1, by omega, .round hfixed ?_⟩
          rw [decode, decodeRounds_of_settled hsettled]
          exact .settled hsettled
        · obtain ⟨n, hn, hrounds⟩ := ih _ (by omega) (decodeOnce cs) rfl
          exact ⟨n + 1, by omega, .round hfixed hrounds⟩

/-- Decoding comes to an end, and the rounds before it does are at most half as many as the text has
characters, rounded up. What it yields holds neither a plus sign nor an escape, stays as it is in
one more round, and is not longer than the text. -/
theorem decode_settles (cs : List Char) :
    (∃ n, 2 * n ≤ cs.length + 1 ∧ Settles n cs (decode cs)) ∧
      '+' ∉ decode cs ∧ ¬HoldsEscape (decode cs) ∧ decodeOnce (decode cs) = decode cs ∧
        (decode cs).length ≤ cs.length := by
  obtain ⟨n, hn, hrounds⟩ := exists_settles_decode cs
  obtain ⟨hplus, hescape⟩ := decodeOnce_eq_self_iff.1 hrounds.decodeOnce_eq
  exact ⟨⟨n, hn, hrounds⟩, hplus, hescape, hrounds.decodeOnce_eq, hrounds.length_le⟩

/-- An escaped plus sign takes as many rounds as its length allows. -/
example : Settles 2 "%2B".toList " ".toList :=
  .round (by decide) (.round (by decide) (.settled (by decide)))

end Label

end LinkSieve.Text
