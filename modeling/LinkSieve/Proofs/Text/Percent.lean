import LinkSieve.Proofs.Text.Split
import LinkSieve.Proofs.Text.Utf8
import LinkSieve.Text.Percent

/-!
# Escaping and its inverse

Two facts make escaped text stable. A set that holds none of the characters that escapes consist
of leaves nothing to escape after one round, so escaping twice is escaping once. A set that holds
the percent sign can be undone: decoding gives the bytes of the text back.

Decoding a text that holds an escape shortens it, even where the bytes are no text and have to be
repaired. Escaping a text before its escapes are decoded makes no difference to what they are
decoded to, if nothing is escaped that means something to decoding.
-/

namespace LinkSieve.Text.Percent

/-- The characters that escapes consist of. -/
def escapeChars : List Char := "%0123456789ABCDEF".toList

theorem hexDigit_mem_escapeChars : ∀ n < 16, hexDigit n ∈ escapeChars := by
  decide

theorem mem_escapeChars_of_mem_escape {c : Char} {b : UInt8} (h : c ∈ escape b) :
    c ∈ escapeChars := by
  have hb : b.toNat < 256 := b.toNat_lt
  simp only [escape, List.mem_cons, List.not_mem_nil, or_false] at h
  rcases h with rfl | rfl | rfl
  · decide
  · exact hexDigit_mem_escapeChars _ (by omega)
  · exact hexDigit_mem_escapeChars _ (by omega)

section Encode

variable {escaped : Char → Bool}

@[simp] theorem encode_nil : encode escaped [] = [] := rfl

theorem encode_cons (c : Char) (cs : List Char) :
    encode escaped (c :: cs) =
      (if escaped c then (String.utf8EncodeChar c).flatMap escape else [c]) ++
        encode escaped cs := rfl

/-- Every character of an escaped text stood there unescaped or belongs to an escape. -/
theorem mem_encode {c : Char} {cs : List Char} (h : c ∈ encode escaped cs) :
    (c ∈ cs ∧ escaped c = false) ∨ c ∈ escapeChars := by
  obtain ⟨d, hd, hc⟩ := List.mem_flatMap.1 h
  split at hc
  · obtain ⟨b, -, hb⟩ := List.mem_flatMap.1 hc
    exact .inr (mem_escapeChars_of_mem_escape hb)
  · rename_i hesc
    obtain rfl := List.mem_singleton.1 hc
    exact .inl ⟨hd, Bool.eq_false_iff.2 hesc⟩

/-- A set that spares the characters of escapes finds nothing to escape in an escaped text. -/
theorem not_escaped_of_mem_encode (hspare : ∀ c ∈ escapeChars, escaped c = false) {c : Char}
    {cs : List Char} (h : c ∈ encode escaped cs) : escaped c = false :=
  (mem_encode h).elim (·.2) (hspare c)

/-- A text without characters of the set stays as it is. -/
theorem encode_eq_self {cs : List Char} (h : ∀ c ∈ cs, escaped c = false) :
    encode escaped cs = cs := by
  induction cs with
  | nil => rfl
  | cons c cs ih =>
      rw [encode_cons, h c List.mem_cons_self, ih fun d hd => h d (List.mem_cons_of_mem c hd)]
      rfl

theorem encode_ne_nil {cs : List Char} (h : cs ≠ []) : encode escaped cs ≠ [] := by
  cases cs with
  | nil => exact absurd rfl h
  | cons c cs =>
      rw [encode_cons]
      split
      · cases hb : String.utf8EncodeChar c with
        | nil => exact absurd hb String.utf8EncodeChar_ne_nil
        | cons b bs => simp [escape]
      · simp

theorem encode_append (a b : List Char) :
    encode escaped (a ++ b) = encode escaped a ++ encode escaped b :=
  List.flatMap_append

/-- A character that is neither escaped nor part of an escape. -/
structure IsSeparator (escaped : Char → Bool) (sep : Char) : Prop where
  kept : escaped sep = false
  spared : sep ∉ escapeChars

theorem IsSeparator.not_mem {sep : Char} (hsep : IsSeparator escaped sep) {cs : List Char}
    (h : sep ∉ cs) : sep ∉ encode escaped cs := by
  intro hmem
  rcases mem_encode hmem with ⟨hmem, -⟩ | hmem
  · exact h hmem
  · exact hsep.spared hmem

theorem IsSeparator.encode_cons {sep : Char} (hsep : IsSeparator escaped sep) (cs : List Char) :
    encode escaped (sep :: cs) = sep :: encode escaped cs := by
  rw [Percent.encode_cons, hsep.kept]
  rfl

/-- Cutting an escaped text at a separator cuts the text. -/
theorem IsSeparator.cutOption {sep : Char} (hsep : IsSeparator escaped sep) (cs : List Char) :
    Text.cutOption sep (encode escaped cs) =
      (encode escaped (Text.cutOption sep cs).1,
        (Text.cutOption sep cs).2.map (encode escaped)) := by
  by_cases hmem : sep ∈ cs
  · obtain ⟨before, after, rfl, hbefore⟩ := List.eq_append_cons_of_mem hmem
    rw [encode_append, hsep.encode_cons, cutOption_append_cons (hsep.not_mem hbefore),
      cutOption_append_cons hbefore]
    rfl
  · rw [cutOption_of_not_mem (hsep.not_mem hmem), cutOption_of_not_mem hmem]
    rfl

/-- The pieces of an escaped text are the escaped pieces. -/
theorem IsSeparator.splitOn {sep : Char} (hsep : IsSeparator escaped sep) (cs : List Char) :
    (encode escaped cs).splitOn sep = (cs.splitOn sep).map (encode escaped) := by
  induction cs with
  | nil => rfl
  | cons c cs ih =>
      by_cases hc : c = sep
      · subst hc
        rw [hsep.encode_cons, splitOn_cons_self, splitOn_cons_self, ih, List.map_cons,
          encode_nil]
      · have hblock : sep ∉ encode escaped [c] :=
          hsep.not_mem fun hmem => hc (List.mem_singleton.1 hmem).symm
        rw [← List.singleton_append, encode_append, splitOn_append hblock, ih,
          splitOn_append fun hmem => hc (List.mem_singleton.1 hmem).symm]
        cases hpieces : cs.splitOn sep with
        | nil => exact absurd hpieces (List.splitOn_ne_nil sep cs)
        | cons first others =>
            simp only [List.map_cons, List.modifyHead_cons, encode_append]

end Encode

theorem decode_cons_of_ne {b : UInt8} (hb : b ≠ 0x25) (rest : List UInt8) :
    decode (b :: rest) = b :: decode rest := by
  rw [decode]
  exact fun _ _ _ h _ => hb h

theorem length_decode_le (bytes : List UInt8) : (decode bytes).length ≤ bytes.length := by
  induction bytes using decode.induct with
  | case1 a b rest byte hpair ih =>
      rw [decode, hpair]
      simp only [List.length_cons]
      omega
  | case2 a b rest hpair ih =>
      rw [decode, hpair]
      simp only [List.length_cons] at ih ⊢
      omega
  | case3 b rest hno ih =>
      rw [decode]
      · simp only [List.length_cons]
        omega
      · exact hno
  | case4 => exact Nat.le_refl 0

/-- Bytes among which there is no percent sign stay as they are. -/
theorem decode_append_of_not_mem {bytes : List UInt8} (h : (0x25 : UInt8) ∉ bytes)
    (rest : List UInt8) : decode (bytes ++ rest) = bytes ++ decode rest := by
  induction bytes with
  | nil => rfl
  | cons b bs ih =>
      obtain ⟨hb, hbs⟩ := not_or.1 (mt List.mem_cons.2 h)
      rw [List.cons_append, decode_cons_of_ne (Ne.symm hb), ih hbs, List.cons_append]

theorem encode_escape (b : UInt8) :
    Utf8.encode (escape b) =
      [0x25, UInt8.ofNat (hexDigit (b.toNat / 16)).toNat,
        UInt8.ofNat (hexDigit (b.toNat % 16)).toNat] := by
  have hascii : ∀ c ∈ escapeChars, c.toNat < 0x80 := forall_of_all (by decide)
  rw [Utf8.encode_of_ascii fun c hc => hascii c (mem_escapeChars_of_mem_escape hc)]
  rfl

theorem hexValue?_hexDigit : ∀ n < 16,
    hexValue? (UInt8.ofNat (hexDigit n).toNat) = some (UInt8.ofNat n) := by
  decide

theorem hexPair?_hexDigit (b : UInt8) :
    hexPair? (UInt8.ofNat (hexDigit (b.toNat / 16)).toNat)
      (UInt8.ofNat (hexDigit (b.toNat % 16)).toNat) = some b := by
  have hb : b.toNat < 256 := b.toNat_lt
  simp only [hexPair?, hexValue?_hexDigit _ (show b.toNat / 16 < 16 by omega),
    hexValue?_hexDigit _ (show b.toNat % 16 < 16 by omega), Option.bind_eq_bind, Option.bind_some,
    Option.pure_def, Option.some.injEq]
  apply UInt8.toNat_inj.1
  simp only [UInt8.toNat_add, UInt8.toNat_mul, UInt8.toNat_ofNat', UInt8.reduceToNat]
  omega

/-- The escape of a byte is read as that byte. -/
theorem decode_escape (b : UInt8) (rest : List UInt8) :
    decode (Utf8.encode (escape b) ++ rest) = b :: decode rest := by
  rw [encode_escape, List.cons_append, List.cons_append, List.cons_append, decode,
    hexPair?_hexDigit, List.nil_append]

theorem decode_flatMap_escape (bytes rest : List UInt8) :
    decode (Utf8.encode (bytes.flatMap escape) ++ rest) = bytes ++ decode rest := by
  induction bytes with
  | nil => rfl
  | cons b bs ih =>
      rw [List.flatMap_cons, Utf8.encode_append, List.append_assoc, decode_escape, ih,
        List.cons_append]

theorem percent_not_mem_utf8EncodeChar {c : Char} (hc : c ≠ '%') :
    (0x25 : UInt8) ∉ String.utf8EncodeChar c := by
  intro h
  have hnat := Utf8.toNat_eq_of_mem_utf8EncodeChar h (by decide)
  exact hc (Char.toNat_inj.1 hnat)

/-- Decoding undoes the escapes of a set that holds the percent sign if the text does. -/
theorem decode_encode {escaped : Char → Bool} {cs : List Char}
    (hpercent : '%' ∈ cs → escaped '%' = true) :
    decode (Utf8.encode (encode escaped cs)) = Utf8.encode cs := by
  induction cs with
  | nil => rfl
  | cons c cs ih =>
      have hrest := ih fun hmem => hpercent (List.mem_cons_of_mem c hmem)
      rw [encode_cons, Utf8.encode_append, Utf8.encode_cons]
      split
      · rw [decode_flatMap_escape, hrest]
      · rename_i hesc
        have hc : c ≠ '%' := by
          rintro rfl
          exact hesc (hpercent List.mem_cons_self)
        rw [Utf8.encode_cons, Utf8.encode_nil, List.append_nil,
          decode_append_of_not_mem (percent_not_mem_utf8EncodeChar hc), hrest]

/-- The value of a hexadecimal digit. -/
def digit? (c : Char) : Option UInt8 :=
  if c.toNat < 0x80 then hexValue? (UInt8.ofNat c.toNat) else none

/-- The byte of the escape of which a text is left after the percent sign, and what follows. -/
def takeEscape? : List Char → Option (UInt8 × List Char)
  | a :: b :: rest => do
    let high ← digit? a
    let low ← digit? b
    return (high * 16 + low, rest)
  | _ => none

theorem toNat_lt_of_hexValue? {b v : UInt8} (h : hexValue? b = some v) : b.toNat < 0x80 := by
  simp only [hexValue?, Bool.and_eq_true, decide_eq_true_iff, UInt8.le_iff_toNat_le,
    UInt8.reduceToNat] at h
  split at h
  · omega
  split at h
  · omega
  split at h
  · omega
  · cases h

theorem digit?_eq_some {c : Char} {v : UInt8} (h : digit? c = some v) :
    String.utf8EncodeChar c = [UInt8.ofNat c.toNat] ∧ hexValue? (UInt8.ofNat c.toNat) = some v := by
  rw [digit?] at h
  split at h
  · rename_i hascii
    exact ⟨Utf8.utf8EncodeChar_of_ascii hascii, h⟩
  · cases h

theorem isAlphanum_of_digit? {c : Char} {v : UInt8} (h : digit? c = some v) :
    c.isAlphanum = true := by
  have hall : ∀ c : Char, c.toNat < 0x80 → (hexValue? (UInt8.ofNat c.toNat)).isSome = true →
      c.isAlphanum = true := forall_of_ofNat (by decide)
  rw [digit?] at h
  split at h
  · rename_i hascii
    exact hall c hascii (h ▸ rfl)
  · cases h

theorem takeEscape?_eq_some {cs rest : List Char} {byte : UInt8}
    (h : takeEscape? cs = some (byte, rest)) :
    ∃ a b high low, cs = a :: b :: rest ∧ digit? a = some high ∧ digit? b = some low ∧
      byte = high * 16 + low := by
  match cs, h with
  | a :: b :: cs, h =>
      obtain ⟨high, hhigh, h⟩ := Option.bind_eq_some_iff.1 h
      obtain ⟨low, hlow, h⟩ := Option.bind_eq_some_iff.1 h
      obtain ⟨rfl, rfl⟩ := Prod.mk.inj (Option.some.inj h)
      exact ⟨a, b, high, low, rfl, hhigh, hlow, rfl⟩

/-- A hexadecimal digit at the front of the form of a text is its first character. -/
theorem exists_eq_cons_of_encode {cs : List Char} {b v : UInt8} {bytes : List UInt8}
    (h : Utf8.encode cs = b :: bytes) (hb : hexValue? b = some v) :
    ∃ c rest, cs = c :: rest ∧ digit? c = some v ∧ Utf8.encode rest = bytes := by
  have hlow := toNat_lt_of_hexValue? hb
  cases cs with
  | nil => cases h
  | cons c rest =>
      rw [Utf8.encode_cons] at h
      have hmem : b ∈ String.utf8EncodeChar c := by
        cases hform : String.utf8EncodeChar c with
        | nil => exact absurd hform String.utf8EncodeChar_ne_nil
        | cons a as =>
            rw [hform] at h
            obtain rfl := (List.cons.inj h).1
            exact List.mem_cons_self
      have hnat := Utf8.toNat_eq_of_mem_utf8EncodeChar hmem hlow
      have hascii : c.toNat < 0x80 := by omega
      rw [Utf8.utf8EncodeChar_of_ascii hascii] at h
      obtain ⟨hbyte, hbytes⟩ := List.cons.inj h
      refine ⟨c, rest, rfl, ?_, hbytes⟩
      rw [digit?, if_pos hascii, hbyte, hb]

/-- Two digits after a percent sign are an escape with it; a percent sign before anything else
stands for itself. -/
theorem decode_percent (cs : List Char) :
    decode (Utf8.encode ('%' :: cs)) =
      match takeEscape? cs with
      | some (byte, rest) => byte :: decode (Utf8.encode rest)
      | none => 0x25 :: decode (Utf8.encode cs) := by
  have hpercent : String.utf8EncodeChar '%' = [0x25] := rfl
  rw [Utf8.encode_cons, hpercent, List.singleton_append]
  split
  · rename_i byte rest hescape
    obtain ⟨a, b, high, low, rfl, ha, hb, rfl⟩ := takeEscape?_eq_some hescape
    obtain ⟨hform, hhigh⟩ := digit?_eq_some ha
    obtain ⟨hform', hlow⟩ := digit?_eq_some hb
    rw [Utf8.encode_cons, Utf8.encode_cons, hform, hform', List.singleton_append,
      List.singleton_append, decode, hexPair?, hhigh, hlow]
    rfl
  · rename_i hnone
    match hbytes : Utf8.encode cs with
    | [] => rfl
    | [a] => rfl
    | a :: b :: bytes =>
        rw [decode]
        cases hpair : hexPair? a b with
        | none => rfl
        | some byte =>
            obtain ⟨high, hhigh, hpair⟩ := Option.bind_eq_some_iff.1 hpair
            obtain ⟨low, hlow, -⟩ := Option.bind_eq_some_iff.1 hpair
            obtain ⟨d, ds, rfl, hd, hds⟩ := exists_eq_cons_of_encode hbytes hhigh
            obtain ⟨e, rest, rfl, he, -⟩ := exists_eq_cons_of_encode hds hlow
            rw [takeEscape?, hd, he] at hnone
            cases hnone

theorem decode_encode_cons_of_ne {c : Char} (hc : c ≠ '%') (cs : List Char) :
    decode (Utf8.encode (c :: cs)) = String.utf8EncodeChar c ++ decode (Utf8.encode cs) :=
  decode_append_of_not_mem (percent_not_mem_utf8EncodeChar hc) _

/-- Decoding the form of a text takes its first character as it is, or as the start of an escape
of three characters. -/
theorem decode_encode_cons (c : Char) (cs : List Char) :
    decode (Utf8.encode (c :: cs)) = String.utf8EncodeChar c ++ decode (Utf8.encode cs) ∨
      ∃ a b rest byte, cs = a :: b :: rest ∧
        decode (Utf8.encode (c :: cs)) = byte :: decode (Utf8.encode rest) := by
  by_cases hc : c = '%'
  · subst hc
    have hdecode := decode_percent cs
    cases hescape : takeEscape? cs with
    | none =>
        rw [hescape] at hdecode
        exact .inl hdecode
    | some found =>
        obtain ⟨byte, rest⟩ := found
        rw [hescape] at hdecode
        obtain ⟨a, b, -, -, rfl, -⟩ := takeEscape?_eq_some hescape
        exact .inr ⟨a, b, rest, byte, rfl, hdecode⟩
  · exact .inl (decode_encode_cons_of_ne hc cs)

/-- What a text yields once its escapes are decoded and read as text: as many characters as it
has if it holds no escape, and at least two fewer otherwise. -/
theorem length_scanFrom_decode {state : Option Utf8.Pending} (hstate : Utf8.IsInner state)
    (cs : List Char) :
    (decode (Utf8.encode cs) = Utf8.encode cs ∧
        (Utf8.scanFrom state (Utf8.encode cs)).length =
          cs.length + (Utf8.scanFrom state []).length) ∨
      (Utf8.scanFrom state (decode (Utf8.encode cs))).length + 2 ≤
        cs.length + (Utf8.scanFrom state []).length := by
  induction hn : cs.length using Nat.strongRecOn generalizing cs state with
  | ind n ih =>
      subst hn
      cases cs with
      | nil => exact .inl ⟨rfl, (Nat.zero_add _).symm⟩
      | cons c cs =>
          rcases decode_encode_cons c cs with hdecode | ⟨a, b, rest, byte, rfl, hdecode⟩
          · have hrest := ih cs.length (Nat.lt_succ_self _) Utf8.isInner_none cs rfl
            rw [hdecode, Utf8.scanFrom_char hstate, Utf8.encode_cons, Utf8.scanFrom_char hstate]
            simp only [List.length_append, List.length_cons]
            rcases hrest with ⟨hsame, hlength⟩ | hshorter
            · left
              rw [hsame]
              refine ⟨rfl, ?_⟩
              simp only [Utf8.scanFrom, List.length_nil] at hlength
              omega
            · right
              simp only [Utf8.scanFrom, List.length_nil] at hshorter
              omega
          · right
            have hnext : Utf8.IsInner (Utf8.step state byte).2 := Utf8.isInner_step byte
            have hrest := ih rest.length (by simp only [List.length_cons]; omega) hnext rest rfl
            have hstep := Utf8.length_step_le state byte
            rw [hdecode, Utf8.scanFrom_cons]
            simp only [List.length_append, List.length_cons]
            rcases hrest with ⟨hsame, hlength⟩ | hshorter
            · rw [hsame]
              omega
            · omega

/-- A byte that belongs to no escape is left where it stands. -/
theorem mem_decode {b : UInt8} (hpercent : b ≠ 0x25) (hdigit : hexValue? b = none)
    {bytes : List UInt8} (h : b ∈ bytes) : b ∈ decode bytes := by
  induction bytes using decode.induct with
  | case1 x y rest byte hpair ih =>
      have hdigits : hexPair? x y ≠ none := by
        rw [hpair]
        exact Option.some_ne_none byte
      have hx : b ≠ x := by
        rintro rfl
        exact hdigits (by rw [hexPair?, hdigit]; rfl)
      have hy : b ≠ y := by
        rintro rfl
        exact hdigits (by rw [hexPair?, hdigit]; cases hexValue? x <;> rfl)
      simp only [List.mem_cons, hpercent, hx, hy, false_or] at h
      rw [decode, hpair]
      exact List.mem_cons_of_mem byte (ih h)
  | case2 x y rest hpair ih =>
      rw [decode, hpair]
      exact List.mem_cons_of_mem _ (ih ((List.mem_cons.1 h).resolve_left hpercent))
  | case3 a rest hno ih =>
      rw [decode]
      · rcases List.mem_cons.1 h with rfl | h
        · exact List.mem_cons_self
        · exact List.mem_cons_of_mem a (ih h)
      · exact hno
  | case4 => cases h

/-- An ASCII character that belongs to no escape is among those that a text stands for. -/
theorem mem_decodeLossy_decode {c : Char} (hascii : c.toNat < 0x80) (hpercent : c ≠ '%')
    (hdigit : digit? c = none) {cs : List Char} (h : c ∈ cs) :
    c ∈ Utf8.decodeLossy (decode (Utf8.encode cs)) := by
  have hform := Utf8.utf8EncodeChar_of_ascii hascii
  have hbyte : UInt8.ofNat c.toNat ∈ Utf8.encode cs := by
    refine List.mem_flatMap.2 ⟨c, h, ?_⟩
    rw [hform]
    exact List.mem_singleton_self _
  have hnat : (UInt8.ofNat c.toNat).toNat = c.toNat := by
    rw [UInt8.toNat_ofNat']
    omega
  have hne : UInt8.ofNat c.toNat ≠ 0x25 := by
    intro heq
    rw [heq] at hnat
    exact hpercent (Char.toNat_inj.1 hnat.symm)
  rw [digit?, if_pos hascii] at hdigit
  have hlow : UInt8.ofNat c.toNat < 0x80 := by
    rw [UInt8.lt_iff_toNat_lt, hnat]
    exact hascii
  have hscan := Utf8.mem_scanFrom_of_ascii Utf8.isInner_none hlow (mem_decode hne hdigit hbyte)
  rw [hnat, Char.ofNat_toNat] at hscan
  exact List.mem_map.2 ⟨_, hscan, rfl⟩

section Partly

variable {escaped : Char → Bool} {cs ds : List Char}

/-- Whether a character means something to decoding: the percent sign, the digits of an escape and
the plus sign, which may stand for a space. -/
def isActive (c : Char) : Bool :=
  c = '%' || c = '+' || (digit? c).isSome

/-- A text with some of its characters escaped, none of which means anything to decoding. -/
inductive Partly : List Char → List Char → Prop where
  | nil : Partly [] []
  | keep (c : Char) {cs ds : List Char} : Partly cs ds → Partly (c :: cs) (c :: ds)
  | escape {c : Char} {cs ds : List Char} : isActive c = false → Partly cs ds →
      Partly (c :: cs) ((String.utf8EncodeChar c).flatMap Percent.escape ++ ds)

theorem partly_encode (h : ∀ c, escaped c = true → isActive c = false) (cs : List Char) :
    Partly cs (encode escaped cs) := by
  induction cs with
  | nil => exact .nil
  | cons c cs ih =>
      rw [encode_cons]
      split
      · rename_i hescaped
        exact .escape (h c hescaped) ih
      · exact .keep c ih

theorem Partly.cons_of_digit {a : Char} {v : UInt8} (ha : digit? a = some v)
    (h : Partly (a :: cs) ds) : ∃ rest, ds = a :: rest ∧ Partly cs rest := by
  cases h with
  | keep _ h => exact ⟨_, rfl, h⟩
  | escape hno _ =>
      rw [isActive, ha, Option.isSome_some, Bool.or_true] at hno
      cases hno

theorem Partly.of_cons_digit {a : Char} {v : UInt8} (ha : digit? a = some v)
    (h : Partly cs (a :: ds)) : ∃ rest, cs = a :: rest ∧ Partly rest ds := by
  generalize hall : a :: ds = all at h
  cases h with
  | nil => cases hall
  | keep c h =>
      obtain ⟨rfl, rfl⟩ := List.cons.inj hall
      exact ⟨_, rfl, h⟩
  | @escape c _ _ _ _ =>
      exfalso
      cases hbytes : String.utf8EncodeChar c with
      | nil => exact String.utf8EncodeChar_ne_nil hbytes
      | cons b bytes =>
          rw [hbytes] at hall
          obtain ⟨rfl, -⟩ := List.cons.inj hall
          cases ha

theorem Partly.takeEscape?_eq_none (h : Partly cs ds) (hnone : takeEscape? cs = none) :
    takeEscape? ds = none := by
  cases hescape : takeEscape? ds with
  | none => rfl
  | some found =>
      obtain ⟨byte, rest⟩ := found
      obtain ⟨a, b, high, low, rfl, ha, hb, -⟩ := Percent.takeEscape?_eq_some hescape
      obtain ⟨cs, rfl, hcs⟩ := h.of_cons_digit ha
      obtain ⟨cs, rfl, -⟩ := hcs.of_cons_digit hb
      rw [takeEscape?, ha, hb] at hnone
      cases hnone

theorem Partly.exists_takeEscape? {byte : UInt8} {rest : List Char} (h : Partly cs ds)
    (hescape : takeEscape? cs = some (byte, rest)) :
    rest.length < cs.length ∧ ∃ rest', takeEscape? ds = some (byte, rest') ∧ Partly rest rest' := by
  obtain ⟨a, b, high, low, rfl, ha, hb, rfl⟩ := Percent.takeEscape?_eq_some hescape
  obtain ⟨ds, rfl, hds⟩ := h.cons_of_digit ha
  obtain ⟨ds, rfl, hrest⟩ := hds.cons_of_digit hb
  refine ⟨Nat.lt_add_of_pos_right Nat.two_pos, ds, ?_, hrest⟩
  rw [takeEscape?, ha, hb]
  rfl

/-- Escapes that are put into a text are decoded to what they stand for, and no others come about.
An escape takes two characters after its percent sign, so the induction is on the length. -/
theorem Partly.decode_eq (h : Partly cs ds) :
    decode (Utf8.encode ds) = decode (Utf8.encode cs) := by
  induction hn : cs.length using Nat.strongRecOn generalizing cs ds with
  | ind n ih =>
      subst hn
      cases h with
      | nil => rfl
      | @keep c cs ds h =>
          have htail := ih cs.length (Nat.lt_succ_self _) h rfl
          by_cases hc : c = '%'
          · subst hc
            rw [decode_percent, decode_percent]
            cases hescape : takeEscape? cs with
            | none => rw [h.takeEscape?_eq_none hescape, htail]
            | some found =>
                obtain ⟨byte, rest⟩ := found
                obtain ⟨hshorter, rest', hescape', hrest⟩ := h.exists_takeEscape? hescape
                rw [hescape']
                simp only [ih rest.length (Nat.lt_succ_of_lt hshorter) hrest rfl]
          · rw [decode_encode_cons_of_ne hc, decode_encode_cons_of_ne hc, htail]
      | @escape c cs ds hno h =>
          have hc : c ≠ '%' := by
            rintro rfl
            cases hno
          rw [Utf8.encode_append, decode_flatMap_escape, decode_encode_cons_of_ne hc,
            ih cs.length (Nat.lt_succ_self _) h rfl]

end Partly

end LinkSieve.Text.Percent
