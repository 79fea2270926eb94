import LinkSieve.Proofs.Url.Spelling

/-!
# Hosts in letters of either case

Digits have the same value in either case, and the marks that part the pieces of an address are no
letters, so addresses are read without regard to case. A domain name is brought to lower case when
it is read, after its escapes have been decoded: decoding tells no capital from its letter either.
An opaque name keeps its case, and reads in lower case as the name in lower case does.
-/

namespace LinkSieve

open Text (lowerAscii)

namespace Decimal

theorem digit?_lowerAscii (base : Nat) (c : Char) : digit? base (lowerAscii c) = digit? base c := by
  have hhex : hexDigit? (lowerAscii c) = hexDigit? c := Text.apply_lowerAscii (by decide) c
  rw [digit?, digit?, hhex]

theorem isDigit_lowerAscii (base : Nat) (c : Char) :
    isDigit base (lowerAscii c) = isDigit base c := by
  rw [isDigit, isDigit, digit?_lowerAscii]

theorem readNat?_map_lowerAscii (base : Nat) (cs : List Char) :
    readNat? base (cs.map lowerAscii) = readNat? base cs := by
  have hdigits : isDigit base ∘ lowerAscii = isDigit base := funext (isDigit_lowerAscii base)
  have hvalue : ofDigits base (cs.map lowerAscii) = ofDigits base cs := by
    rw [ofDigits, List.foldl_map]
    simp only [digit?_lowerAscii]
    rfl
  rw [readNat?, readNat?, List.isEmpty_map, List.all_map, hdigits, hvalue]

end Decimal

namespace Address

theorem Ipv4.readPart?_map_lowerAscii (cs : List Char) :
    readPart? (cs.map lowerAscii) = readPart? cs := by
  have hhead : (cs.map lowerAscii).head? = some '0' ↔ cs.head? = some '0' := by
    rw [List.head?_map]
    exact Text.map_lowerAscii_eq_some (by decide) (by decide)
  rw [readPart?, readPart?, List.length_map, Decimal.readNat?_map_lowerAscii]
  simp only [hhead]

theorem Ipv4.read?_map_lowerAscii (cs : List Char) : read? (cs.map lowerAscii) = read? cs := by
  have hpart : readPart? ∘ List.map lowerAscii = readPart? := funext readPart?_map_lowerAscii
  rw [read?, read?, Text.splitOn_map_lowerAscii (by decide) (by decide), List.mapM_map, hpart]

namespace Ipv6

theorem readPiece?_map_lowerAscii (cs : List Char) :
    readPiece? (cs.map lowerAscii) = readPiece? cs := by
  rw [readPiece?, readPiece?, List.length_map, Decimal.readNat?_map_lowerAscii]

theorem readPieces?_map_lowerAscii (texts : List (List Char)) :
    readPieces? (texts.map (List.map lowerAscii)) = readPieces? texts := by
  induction texts with
  | nil => rfl
  | cons cs rest ih =>
      cases rest with
      | nil =>
          have hpoint : (cs.map lowerAscii).contains '.' = cs.contains '.' := by
            rw [Bool.eq_iff_iff, List.contains_iff_mem, List.contains_iff_mem]
            exact Text.mem_map_lowerAscii (by decide) (by decide)
          simp only [List.map_cons, List.map_nil, readPieces?, hpoint,
            Ipv4.read?_map_lowerAscii, readPiece?_map_lowerAscii]
      | cons next rest =>
          simp only [List.map_cons] at ih ⊢
          simp only [readPieces?, readPiece?_map_lowerAscii, ih]

theorem readSide?_map_lowerAscii (last : Bool) (cs : List Char) :
    readSide? last (cs.map lowerAscii) = readSide? last cs := by
  have hpiece : readPiece? ∘ List.map lowerAscii = readPiece? := funext readPiece?_map_lowerAscii
  rw [readSide?, readSide?, List.isEmpty_map, Text.splitOn_map_lowerAscii (by decide) (by decide),
    readPieces?_map_lowerAscii, List.mapM_map, hpiece]

/-- A character that does not start a pair of colons stands before the first one. -/
theorem cutGap?_cons {c : Char} {cs : List Char} (h : c = ':' → cs.head? ≠ some ':') :
    cutGap? (c :: cs) = (cutGap? cs).map fun (before, after) => (c :: before, after) := by
  rw [cutGap?]
  rintro rest rfl rfl
  exact h rfl rfl

theorem cutGap?_map_lowerAscii (cs : List Char) :
    cutGap? (cs.map lowerAscii) =
      (cutGap? cs).map fun (before, after) => (before.map lowerAscii, after.map lowerAscii) := by
  have hcolon {o : Option Char} : o.map lowerAscii = some ':' ↔ o = some ':' :=
    Text.map_lowerAscii_eq_some (by decide) (by decide)
  induction cs with
  | nil => rfl
  | cons c cs ih =>
      by_cases hgap : c = ':' ∧ cs.head? = some ':'
      · obtain ⟨rfl, hnext⟩ := hgap
        obtain ⟨rest, rfl⟩ := List.head?_eq_some_iff.1 hnext
        rfl
      · have hrest : c = ':' → cs.head? ≠ some ':' := fun hc hnext => hgap ⟨hc, hnext⟩
        have hlower : lowerAscii c = ':' → (cs.map lowerAscii).head? ≠ some ':' := by
          rw [List.head?_map, Ne, hcolon, Text.lowerAscii_eq_iff (by decide) (by decide)]
          exact hrest
        rw [List.map_cons, cutGap?_cons hlower, cutGap?_cons hrest, ih, Option.map_map,
          Option.map_map]
        rfl

theorem read?_map_lowerAscii (cs : List Char) : read? (cs.map lowerAscii) = read? cs := by
  rw [read?, read?, cutGap?_map_lowerAscii, Text.splitOn_map_lowerAscii (by decide) (by decide),
    readPieces?_map_lowerAscii]
  cases cutGap? cs with
  | none => rfl
  | some cut => simp only [Option.map_some, readSide?_map_lowerAscii]

end Ipv6

end Address

namespace Text

/-- The lower-case form of a byte that is an ASCII letter. -/
def lowerByte (b : UInt8) : UInt8 :=
  if 0x41 ≤ b && b ≤ 0x5A then b + 0x20 else b

theorem lowerByte_eq_self {b : UInt8} (h : ¬b < 0x80) : lowerByte b = b := by
  rw [lowerByte, if_neg]
  rw [Bool.and_eq_true, decide_eq_true_iff, decide_eq_true_iff]
  rintro ⟨-, hle⟩
  exact h (UInt8.lt_of_le_of_lt hle (by decide))

theorem lowerByte_ofNat : ∀ n < 0x80,
    lowerByte (UInt8.ofNat n) = UInt8.ofNat (lowerAscii (Char.ofNat n)).toNat := by
  decide

/-- What is the same for the letters of ASCII in either case is the same for every byte. -/
theorem apply_lowerByte {α : Type} {f : UInt8 → α}
    (h : ∀ n < 0x80, f (lowerByte (UInt8.ofNat n)) = f (UInt8.ofNat n)) (b : UInt8) :
    f (lowerByte b) = f b := by
  by_cases hb : b < 0x80
  · have hascii := h b.toNat (UInt8.lt_iff_toNat_lt.1 hb)
    rwa [UInt8.ofNat_toNat] at hascii
  · rw [lowerByte_eq_self hb]

namespace Percent

theorem hexPair?_lowerByte (a b : UInt8) : hexPair? (lowerByte a) (lowerByte b) = hexPair? a b := by
  have hhex (d : UInt8) : hexValue? (lowerByte d) = hexValue? d := apply_lowerByte (by decide) d
  rw [hexPair?, hexPair?, hhex, hhex]

/-- Capitals are decoded as their letters are, in escapes and outside of them: where no escape
starts at a byte, none starts at its small letter. -/
theorem decode_map_lowerByte (bytes : List UInt8) :
    (decode (bytes.map lowerByte)).map lowerByte = (decode bytes).map lowerByte := by
  have hpercent : lowerByte 0x25 = 0x25 := rfl
  have hself (b : UInt8) : lowerByte (lowerByte b) = lowerByte b := apply_lowerByte (by decide) b
  induction bytes using decode.induct with
  | case1 a b rest byte hpair ih =>
      simp only [List.map_cons, hpercent, decode, hexPair?_lowerByte, hpair, ih]
  | case2 a b rest hpair ih =>
      simp only [List.map_cons] at ih
      simp only [List.map_cons, hpercent, decode, hexPair?_lowerByte, hpair, ih]
  | case3 b rest hno ih =>
      have hsame : decide (lowerByte b = 0x25) = decide (b = 0x25) :=
        apply_lowerByte (f := fun b => decide (b = 0x25)) (by decide) b
      have hlower :
          ∀ x y tail, lowerByte b = 0x25 → rest.map lowerByte = x :: y :: tail → False := by
        intro x y tail hb hrest
        rw [hb] at hsame
        obtain ⟨x, front, rfl, -, hfront⟩ := List.map_eq_cons_iff.1 hrest
        obtain ⟨y, tail, rfl, -, -⟩ := List.map_eq_cons_iff.1 hfront
        exact hno x y tail (of_decide_eq_true (hsame.symm.trans (decide_eq_true rfl))) rfl
      rw [List.map_cons, decode, decode, List.map_cons, List.map_cons, hself, ih]
      · exact hno
      · exact hlower
  | case4 => rfl

end Percent

namespace Utf8

theorem utf8EncodeChar_lowerAscii (c : Char) :
    String.utf8EncodeChar (lowerAscii c) = (String.utf8EncodeChar c).map lowerByte := by
  by_cases hc : c.toNat < 0x80
  · have hlower : (lowerAscii c).toNat < 0x80 := by
      by_cases heq : lowerAscii c = c
      · rwa [heq]
      · exact (ascii_of_lowerAscii_ne heq).2
    rw [utf8EncodeChar_of_ascii hc, utf8EncodeChar_of_ascii hlower, List.map_singleton,
      lowerByte_ofNat _ hc, Char.ofNat_toNat]
  · have hself : lowerAscii c = c :=
      Decidable.of_not_not fun hne => hc (ascii_of_lowerAscii_ne hne).1
    rw [hself, map_eq_self]
    intro b hb
    apply lowerByte_eq_self
    intro hlow
    rw [UInt8.lt_iff_toNat_lt] at hlow
    exact hc (toNat_eq_of_mem_utf8EncodeChar hb hlow ▸ hlow)

theorem encode_map_lowerAscii (cs : List Char) :
    encode (cs.map lowerAscii) = (encode cs).map lowerByte := by
  rw [encode, encode, List.flatMap_map, List.map_flatMap]
  simp only [utf8EncodeChar_lowerAscii]

theorem scanFrom_map_lowerByte {state : Option Pending} (h : IsInner state) (bytes : List UInt8) :
    (scanFrom state (bytes.map lowerByte)).map (Option.map lowerAscii) =
      (scanFrom state bytes).map (Option.map lowerAscii) := by
  induction bytes generalizing state with
  | nil => rfl
  | cons b rest ih =>
      rw [List.map_cons]
      by_cases hb : b < 0x80
      · have hlow : lowerByte b < 0x80 := by
          have hall := apply_lowerByte (f := fun b => decide (b < 0x80)) (by decide) b
          rwa [decide_eq_true hb, decide_eq_true_iff] at hall
        have hchar :
            lowerAscii (Char.ofNat (lowerByte b).toNat) = lowerAscii (Char.ofNat b.toNat) :=
          apply_lowerByte (f := fun b => lowerAscii (Char.ofNat b.toNat)) (by decide) b
        rw [scanFrom_ascii h hlow, scanFrom_ascii h hb, List.map_append, List.map_append,
          List.map_cons, List.map_cons, ih isInner_none, Option.map_some, hchar, Option.map_some]
      · rw [lowerByte_eq_self hb, scanFrom_cons, scanFrom_cons, List.map_append, List.map_append,
          ih (isInner_step b)]

theorem decodeLossy_map_lowerByte (bytes : List UInt8) :
    (decodeLossy (bytes.map lowerByte)).map lowerAscii = (decodeLossy bytes).map lowerAscii := by
  have hgap (out : List (Option Char)) : (out.map (·.getD replacement)).map lowerAscii =
      (out.map (Option.map lowerAscii)).map (·.getD replacement) := by
    rw [List.map_map, List.map_map]
    apply List.map_congr_left
    intro c _
    cases c <;> rfl
  rw [decodeLossy, decodeLossy, hgap, hgap, scan, scan, scanFrom_map_lowerByte isInner_none]

end Utf8

/-- What a text stands for, in lower case, does not depend on the case of its letters. -/
theorem decodeLossy_decode_map_lowerAscii (cs : List Char) :
    (Utf8.decodeLossy (Percent.decode (Utf8.encode (cs.map lowerAscii)))).map lowerAscii =
      (Utf8.decodeLossy (Percent.decode (Utf8.encode cs))).map lowerAscii := by
  rw [← Utf8.decodeLossy_map_lowerByte, Utf8.encode_map_lowerAscii, Percent.decode_map_lowerByte,
    Utf8.decodeLossy_map_lowerByte]

end Text

namespace Url.Host

open Address (Ipv6)

theorem readBracketed_map_lowerAscii (inner : List Char) :
    readBracketed (inner.map lowerAscii) = readBracketed inner := by
  have hlast : (inner.map lowerAscii).getLast? = some ']' ↔ inner.getLast? = some ']' := by
    rw [List.getLast?_map]
    exact Text.map_lowerAscii_eq_some (by decide) (by decide)
  rw [readBracketed, readBracketed, ← List.map_dropLast, Ipv6.read?_map_lowerAscii]
  simp only [hlast]

/-- A domain name is read from the name that its text stands for. -/
theorem readWeb_congr {cs ds : List Char} (hcs : cs.head? ≠ some '[') (hds : ds.head? ≠ some '[')
    (h : webName cs = webName ds) : readWeb cs = readWeb ds := by
  unfold webName at h
  unfold readWeb
  split
  · exact absurd rfl hcs
  · split
    · exact absurd rfl hds
    · simp only [h]

theorem head?_map_lowerAscii_bracket {cs : List Char} :
    (cs.map lowerAscii).head? = some '[' ↔ cs.head? = some '[' := by
  rw [List.head?_map]
  exact Text.map_lowerAscii_eq_some (by decide) (by decide)

/-- The host of a web address does not depend on the case of its letters. -/
theorem readWeb_map_lowerAscii (cs : List Char) : readWeb (cs.map lowerAscii) = readWeb cs := by
  by_cases hbracket : cs.head? = some '['
  · obtain ⟨inner, rfl⟩ := List.head?_eq_some_iff.1 hbracket
    exact readBracketed_map_lowerAscii inner
  · exact readWeb_congr (mt head?_map_lowerAscii_bracket.1 hbracket) hbracket
      (Text.decodeLossy_decode_map_lowerAscii cs)

/-- The text of a host in lower case. -/
def lowerText (h : Host) : String :=
  String.ofList (Text.lower h.text.toList)

/-- What is always escaped is no letter, so escapes and letters are told apart in either case. -/
theorem map_lowerAscii_encode (cs : List Char) :
    (Text.Percent.encode Escaped.always (cs.map lowerAscii)).map lowerAscii =
      (Text.Percent.encode Escaped.always cs).map lowerAscii := by
  have hset (c : Char) : Escaped.always (lowerAscii c) = Escaped.always c :=
    Text.apply_lowerAscii (by decide) c
  have hself {c : Char} (h : Escaped.always c = true) : lowerAscii c = c := by
    have hall : ∀ c : Char, c.toNat < 0x80 → Escaped.always c = true → lowerAscii c = c :=
      Text.forall_of_ofNat (by decide)
    exact Decidable.of_not_not fun hne => hne (hall c (Text.ascii_of_lowerAscii_ne hne).1 h)
  induction cs with
  | nil => rfl
  | cons c cs ih =>
      rw [List.map_cons, Text.Percent.encode_cons, Text.Percent.encode_cons, hset]
      split
      · rename_i hc
        rw [List.map_append, List.map_append, ih, hself hc]
      · rw [List.map_append, List.map_append, ih, List.map_singleton, List.map_singleton,
          Text.lowerAscii_lowerAscii]

theorem ascii_of_mem_encode {cs : List Char} :
    ∀ c ∈ Text.Percent.encode Escaped.always cs, c.toNat < 0x80 := by
  intro c hc
  have halways := Text.Percent.not_escaped_of_mem_encode always_escapeChars hc
  simp only [Escaped.always, Bool.or_eq_false_iff, decide_eq_false_iff_not] at halways
  omega

/-- An opaque host in lower case is that of the text in lower case. -/
theorem readOpaque_map_lowerAscii (cs : List Char) :
    (readOpaque (cs.map lowerAscii)).map lowerText = (readOpaque cs).map lowerText := by
  by_cases hbracket : cs.head? = some '['
  · obtain ⟨inner, rfl⟩ := List.head?_eq_some_iff.1 hbracket
    exact congrArg _ (readBracketed_map_lowerAscii inner)
  · have hforbidden : isForbidden ∘ lowerAscii = isForbidden :=
      funext fun c => Text.apply_lowerAscii (by decide) c
    rw [readOpaque_of_head? hbracket,
      readOpaque_of_head? (mt head?_map_lowerAscii_bracket.1 hbracket), List.any_map, hforbidden]
    split
    · rfl
    · simp only [Except.map, lowerText, text, String.toList_ofList,
        Text.lower_of_ascii ascii_of_mem_encode, map_lowerAscii_encode]

end Url.Host

namespace Url

theorem Path.isDrive_map_lowerAscii (cs : List Char) :
    isDrive (cs.map lowerAscii) = isDrive cs := by
  match cs with
  | [] => rfl
  | [c] => rfl
  | [letter, mark] =>
      have hmark : (decide (lowerAscii mark = ':') || decide (lowerAscii mark = '|')) =
          (decide (mark = ':') || decide (mark = '|')) :=
        Text.apply_lowerAscii (f := fun c => decide (c = ':') || decide (c = '|')) (by decide) mark
      simp only [List.map_cons, List.map_nil, isDrive, isAlpha_lowerAscii, hmark]
  | a :: b :: c :: rest => rfl

/-- A text is written as a host may be in letters of either case. -/
theorem isHostSpelling_map_lowerAscii {cs : List Char} :
    IsHostSpelling (cs.map lowerAscii) ↔ IsHostSpelling cs := by
  have hcolon {c : Char} : lowerAscii c = ':' ↔ c = ':' :=
    Text.lowerAscii_eq_iff (by decide) (by decide)
  have hopen {c : Char} : lowerAscii c = '[' ↔ c = '[' :=
    Text.lowerAscii_eq_iff (by decide) (by decide)
  have hclose {c : Char} : lowerAscii c = ']' ↔ c = ']' :=
    Text.lowerAscii_eq_iff (by decide) (by decide)
  have hinner {inner : List Char} : ']' ∈ inner.map lowerAscii ↔ ']' ∈ inner :=
    Text.mem_map_lowerAscii (by decide) (by decide)
  apply or_congr
  · simp only [List.forall_mem_map, ne_eq, hcolon, hopen]
  · constructor
    · rintro ⟨inner, htext, hnot⟩
      obtain ⟨c, rest, rfl, hc, hrest⟩ := List.map_eq_cons_iff.1 htext
      obtain ⟨inner, last, rfl, rfl, hlast⟩ := List.map_eq_append_iff.1 hrest
      obtain ⟨d, rfl, hd⟩ := List.map_eq_singleton_iff.1 hlast
      obtain rfl := hopen.1 hc
      obtain rfl := hclose.1 hd
      exact ⟨inner, rfl, mt hinner.2 hnot⟩
    · rintro ⟨inner, rfl, hnot⟩
      refine ⟨inner.map lowerAscii, ?_, mt hinner.1 hnot⟩
      rw [List.map_cons, List.map_append, List.map_singleton, hopen.2 rfl, hclose.2 rfl]

end Url

end LinkSieve
