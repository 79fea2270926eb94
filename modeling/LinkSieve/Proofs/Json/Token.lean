import LinkSieve.Json.Token
import LinkSieve.Proofs.Json.Numeral

/-!
# The tokens of a written value

The text of a value is read as its tokens, whatever text follows it, as long as that does not
continue a word. Numbers are integers of 64 bits here; a text may hold any characters.
-/

namespace LinkSieve.Json

mutual

/-- The tokens of the text of a value. -/
def tokens : Json → List Token
  | .array items => .openArray :: (itemTokens items ++ [.closeArray])
  | .object fields => .openObject :: (fieldTokens fields ++ [.closeObject])
  | value => [.atom value]

/-- The tokens of the items of an array with commas between them. -/
def itemTokens : List Json → List Token
  | [] => []
  | [item] => item.tokens
  | item :: rest => item.tokens ++ .comma :: itemTokens rest

/-- The tokens of the fields of an object with commas between them. -/
def fieldTokens : List (String × Json) → List Token
  | [] => []
  | [(name, value)] => .atom (.text name) :: .colon :: value.tokens
  | (name, value) :: rest =>
    .atom (.text name) :: .colon :: (value.tokens ++ .comma :: fieldTokens rest)

end

namespace Token

section Steps

variable {state next : State} {c : Char} {t : Token} {rest read : List Char}

theorem scanFrom_cons (state : State) (c : Char) (rest : List Char) :
    scanFrom state (c :: rest) =
      (step state c).bind fun r => (scanFrom r.2 rest).map (r.1 ++ ·) := by
  rw [scanFrom]
  cases step state c with
  | none => rfl
  | some r =>
      obtain ⟨ts, next⟩ := r
      simp only [Option.bind_eq_bind, Option.bind_some]
      cases scanFrom next rest with
      | none => rfl
      | some us => rfl

/-- A character that completes no token only changes the state. -/
theorem scanFrom_silent (h : step state c = some ([], next)) (rest : List Char) :
    scanFrom state (c :: rest) = scanFrom next rest := by
  rw [scanFrom_cons, h, Option.bind_some]
  cases scanFrom next rest with
  | none => rfl
  | some ts => rfl

theorem scanFrom_single (h : start c = some ([t], .between)) (rest : List Char) :
    scanFrom .between (c :: rest) = (scanFrom .between rest).map (t :: ·) := by
  have hstep : step .between c = some ([t], .between) := h
  rw [scanFrom_cons, hstep]
  rfl

end Steps

/-- A text that does not continue a word. -/
def EndsWord (rest : List Char) : Prop :=
  ∀ c, rest.head? = some c → isWordChar c = false

section Words

variable {word read rest : List Char} {value : Json}

theorem start_of_isWordChar {c : Char} (h : isWordChar c = true) :
    start c = some ([], .word [c]) := by
  have hspace : isSpace c = false := by
    rw [Bool.eq_false_iff]
    intro hs
    simp only [isSpace, Bool.or_eq_true, decide_eq_true_iff] at hs
    rcases hs with ((rfl | rfl) | rfl) | rfl <;> exact absurd h (by decide)
  have hquote : c ≠ '"' := by
    rintro rfl
    exact absurd h (by decide)
  rw [start, hspace, if_neg Bool.false_ne_true, if_neg hquote, if_pos h]

theorem scanFrom_word_append (h : ∀ c ∈ word, isWordChar c = true) (read rest : List Char) :
    scanFrom (.word read) (word ++ rest) = scanFrom (.word (word.reverse ++ read)) rest := by
  induction word generalizing read with
  | nil => rfl
  | cons c cs ih =>
      have hstep : step (.word read) c = some ([], .word (c :: read)) := by
        rw [step, if_pos (h c List.mem_cons_self)]
      rw [List.cons_append, scanFrom_silent hstep,
        ih fun d hd => h d (List.mem_cons_of_mem c hd), List.reverse_cons, List.append_assoc]
      rfl

theorem scanFrom_word_end (hvalue : word? read.reverse = some value) (hrest : EndsWord rest) :
    scanFrom (.word read) rest = (scanFrom .between rest).map (.atom value :: ·) := by
  cases rest with
  | nil =>
      have hend : scanFrom (.word read) [] = (word? read.reverse).map fun v => [.atom v] := rfl
      rw [hend, hvalue]
      rfl
  | cons c cs =>
      have hstep : step (.word read) c = (start c).map fun r => (.atom value :: r.1, r.2) := by
        rw [step, hrest c rfl, if_neg Bool.false_ne_true, hvalue]
        cases start c with
        | none => rfl
        | some r => rfl
      have hstart : step .between c = start c := rfl
      rw [scanFrom_cons, scanFrom_cons, hstep, hstart]
      cases start c with
      | none => rfl
      | some r =>
          simp only [Option.map_some, Option.bind_some, Option.map_map]
          rfl

/-- A word is read as its value. -/
theorem scanFrom_word (hne : word ≠ []) (h : ∀ c ∈ word, isWordChar c = true)
    (hvalue : word? word = some value) (hrest : EndsWord rest) :
    scanFrom .between (word ++ rest) = (scanFrom .between rest).map (.atom value :: ·) := by
  cases word with
  | nil => exact absurd rfl hne
  | cons c cs =>
      have hstart : step .between c = some ([], .word [c]) :=
        start_of_isWordChar (h c List.mem_cons_self)
      have hread : word? (cs.reverse ++ [c]).reverse = some value := by
        rw [List.reverse_append, List.reverse_reverse]
        exact hvalue
      rw [List.cons_append, scanFrom_silent hstart,
        scanFrom_word_append (fun d hd => h d (List.mem_cons_of_mem c hd)) [c] rest,
        scanFrom_word_end hread hrest]

end Words

section Texts

theorem step_unit_digitChar {digits value d : Nat} {read : List Char} (hd : d < 16)
    (hdigits : digits < 3) :
    step (.unit none digits value read) d.digitChar =
      some ([], .unit none (digits + 1) (value * 16 + d) read) := by
  simp only [step, Decimal.hexDigit?_digitChar d hd, Option.bind_eq_bind, Option.bind_some,
    hdigits, if_true]
  rfl

theorem step_unit_last {value d : Nat} {read : List Char} (hd : d < 16)
    (hvalue : value * 16 + d < 0xD800) :
    step (.unit none 3 value read) d.digitChar =
      some ([], .string (Char.ofNat (value * 16 + d) :: read)) := by
  have hclose : closeUnit none (value * 16 + d) read =
      some (.string (Char.ofNat (value * 16 + d) :: read)) := by
    have hhigh : ¬0xD800 ≤ value * 16 + d := Nat.not_le.2 hvalue
    have hlow : ¬0xDC00 ≤ value * 16 + d := by omega
    simp only [closeUnit, hhigh, hlow, decide_false, Bool.false_and, Bool.false_eq_true, if_false]
  simp only [step, Decimal.hexDigit?_digitChar d hd, Option.bind_eq_bind, Option.bind_some,
    Nat.lt_irrefl, if_false, hclose]
  rfl

/-- A control character without a letter of its own is read back from its code unit. -/
theorem scanFrom_control {c : Char} (h : c.toNat < 0x20) (read rest : List Char) :
    scanFrom (.string read)
        ("\\u00".toList ++ [Nat.digitChar (c.toNat / 16), Nat.digitChar (c.toNat % 16)] ++ rest) =
      scanFrom (.string (c :: read)) rest := by
  have hvalue : c.toNat / 16 * 16 + c.toNat % 16 = c.toNat := Nat.div_add_mod' c.toNat 16
  have hslash : step (.string read) '\\' = some ([], .escape read) := rfl
  have hu : step (.escape read) 'u' = some ([], .unit none 0 0 read) := rfl
  have hzero : step (.unit none 0 0 read) '0' = some ([], .unit none 1 0 read) := rfl
  have hzeros : step (.unit none 1 0 read) '0' = some ([], .unit none 2 0 read) := rfl
  have hthird : step (.unit none 2 0 read) (Nat.digitChar (c.toNat / 16)) =
      some ([], .unit none 3 (c.toNat / 16) read) := by
    rw [step_unit_digitChar (by omega) (by decide), Nat.zero_mul, Nat.zero_add]
  have hlast : step (.unit none 3 (c.toNat / 16) read) (Nat.digitChar (c.toNat % 16)) =
      some ([], .string (c :: read)) := by
    rw [step_unit_last (by omega) (by omega), hvalue, Char.ofNat_toNat]
  have hchars : "\\u00".toList ++ [Nat.digitChar (c.toNat / 16), Nat.digitChar (c.toNat % 16)] ++
      rest = '\\' :: 'u' :: '0' :: '0' :: Nat.digitChar (c.toNat / 16) ::
        Nat.digitChar (c.toNat % 16) :: rest := rfl
  rw [hchars, scanFrom_silent hslash, scanFrom_silent hu, scanFrom_silent hzero,
    scanFrom_silent hzeros, scanFrom_silent hthird, scanFrom_silent hlast]

/-- A character is read back from its form within quotes. -/
theorem scanFrom_escapeChar (c : Char) (read rest : List Char) :
    scanFrom (.string read) (escapeChar c ++ rest) = scanFrom (.string (c :: read)) rest := by
  have hpair {e : Char} (he : step (.escape read) e = some ([], .string (c :: read))) :
      scanFrom (.string read) (['\\', e] ++ rest) = scanFrom (.string (c :: read)) rest := by
    have hslash : step (.string read) '\\' = some ([], .escape read) := rfl
    rw [List.cons_append, scanFrom_silent hslash, List.cons_append, scanFrom_silent he,
      List.nil_append]
  rw [escapeChar]
  split
  · rename_i hc
    exact hpair (by rw [hc]; rfl)
  split
  · rename_i hc
    exact hpair (by rw [hc]; rfl)
  split
  · rename_i hc
    exact hpair (by rw [hc]; rfl)
  split
  · rename_i hc
    exact hpair (by rw [hc]; rfl)
  split
  · rename_i hc
    exact hpair (by rw [hc]; rfl)
  split
  · rename_i hc
    exact hpair (by rw [hc]; rfl)
  split
  · rename_i hc
    exact hpair (by rw [hc]; rfl)
  split
  · rename_i hcontrol
    exact scanFrom_control hcontrol read rest
  · rename_i hquote hslash _ _ _ _ _ hcontrol
    have hstep : step (.string read) c = some ([], .string (c :: read)) := by
      rw [step, if_neg hquote, if_neg hslash, if_neg hcontrol]
    exact scanFrom_silent hstep rest

theorem scanFrom_string (cs read rest : List Char) :
    scanFrom (.string read) (cs.flatMap escapeChar ++ '"' :: rest) =
      (scanFrom .between rest).map (.atom (.text (String.ofList (read.reverse ++ cs))) :: ·) := by
  induction cs generalizing read with
  | nil =>
      have hclose : step (.string read) '"' =
          some ([.atom (.text (String.ofList read.reverse))], .between) := rfl
      rw [List.flatMap_nil, List.nil_append, scanFrom_cons, hclose, List.append_nil]
      rfl
  | cons c cs ih =>
      rw [List.flatMap_cons, List.append_assoc, scanFrom_escapeChar, ih, List.reverse_cons,
        List.append_assoc]
      rfl

end Texts

/-- A text that is read as given tokens, whatever follows it and does not continue a word. -/
def Scans (cs : List Char) (ts : List Token) : Prop :=
  ∀ rest, EndsWord rest → scanFrom .between (cs ++ rest) = (scanFrom .between rest).map (ts ++ ·)

section Values

variable {as bs cs : List Char} {ts us : List Token} {t : Token} {c : Char}

theorem scans_quote (s : String) : Scans (quote s) [.atom (.text s)] := by
  intro rest _
  have hopen : step .between '"' = some ([], .string []) := rfl
  rw [quote, List.cons_append, scanFrom_silent hopen, List.append_assoc, List.singleton_append,
    scanFrom_string, List.reverse_nil, List.nil_append, String.ofList_toList]
  rfl

theorem scans_word {value : Json} (hne : cs ≠ []) (h : ∀ c ∈ cs, isWordChar c = true)
    (hvalue : word? cs = some value) : Scans cs [.atom value] :=
  fun _ hrest => scanFrom_word hne h hvalue hrest

theorem Scans.cons (hc : start c = some ([t], .between)) (h : Scans cs ts) :
    Scans (c :: cs) (t :: ts) := by
  intro rest hrest
  rw [List.cons_append, scanFrom_single hc, h rest hrest, Option.map_map]
  rfl

theorem scans_single (hc : start c = some ([t], .between)) : Scans [c] [t] := by
  intro rest _
  exact scanFrom_single hc rest

/-- Two texts are read one after the other if the second does not continue a word. -/
theorem Scans.append (h : Scans as ts) (hcs : Scans (c :: bs) us) (hc : isWordChar c = false) :
    Scans (as ++ c :: bs) (ts ++ us) := by
  intro rest hrest
  have hends : EndsWord (c :: bs ++ rest) := by
    intro d hd
    obtain rfl := Option.some.inj hd
    exact hc
  rw [List.append_assoc, h _ hends, hcs rest hrest, Option.map_map]
  simp only [Function.comp_def, List.append_assoc]

theorem scans_writeItems {items : List Json} (h : ∀ item ∈ items, Scans item.write item.tokens)
    (hcs : Scans (c :: bs) us) (hc : isWordChar c = false) :
    Scans (writeItems items ++ c :: bs) (itemTokens items ++ us) := by
  induction items with
  | nil => exact hcs
  | cons item rest ih =>
      have hitem := h item List.mem_cons_self
      have hrest := ih fun i hi => h i (List.mem_cons_of_mem item hi)
      cases rest with
      | nil => exact hitem.append hcs hc
      | cons next rest =>
          have hcomma : Scans (',' :: (writeItems (next :: rest) ++ c :: bs))
              (.comma :: (itemTokens (next :: rest) ++ us)) := Scans.cons rfl hrest
          rw [writeItems, itemTokens, List.append_assoc, List.append_assoc]
          · exact hitem.append hcomma rfl
          · exact List.cons_ne_nil _ _
          · exact List.cons_ne_nil _ _

theorem scans_writeFields {fields : List (String × Json)}
    (h : ∀ field ∈ fields, Scans field.2.write field.2.tokens)
    (hcs : Scans (c :: bs) us) (hc : isWordChar c = false) :
    Scans (writeFields fields ++ c :: bs) (fieldTokens fields ++ us) := by
  induction fields with
  | nil => exact hcs
  | cons field rest ih =>
      obtain ⟨name, value⟩ := field
      have hvalue : Scans value.write value.tokens := h _ List.mem_cons_self
      have hrest := ih fun f hf => h f (List.mem_cons_of_mem _ hf)
      cases rest with
      | nil =>
          have hcolon : Scans (':' :: (value.write ++ c :: bs)) (.colon :: (value.tokens ++ us)) :=
            Scans.cons rfl (hvalue.append hcs hc)
          rw [writeFields, fieldTokens, List.append_assoc]
          exact (scans_quote name).append hcolon rfl
      | cons next rest =>
          have hcomma : Scans (',' :: (writeFields (next :: rest) ++ c :: bs))
              (.comma :: (fieldTokens (next :: rest) ++ us)) := Scans.cons rfl hrest
          have hcolon : Scans
              (':' :: (value.write ++ ',' :: (writeFields (next :: rest) ++ c :: bs)))
              (.colon :: (value.tokens ++ .comma :: (fieldTokens (next :: rest) ++ us))) :=
            Scans.cons rfl (hvalue.append hcomma rfl)
          rw [writeFields, fieldTokens]
          · simp only [List.append_assoc, List.cons_append]
            exact (scans_quote name).append hcolon rfl
          · exact List.cons_ne_nil _ _
          · exact List.cons_ne_nil _ _

theorem word?_text_int {n : Int} (h : Number.InRange (.int n)) :
    word? (Number.int n).text = some (.number (.int n)) := by
  have hnot (w : String) {c : Char} (hmem : c ∈ w.toList)
      (hc : c ∉ '-' :: Decimal.digitChars) : String.ofList (Number.int n).text ≠ w := by
    rintro rfl
    rw [String.toList_ofList] at hmem
    exact hc (List.mem_cons.2 (Numeral.mem_text_int hmem))
  unfold word?
  split
  · rename_i hnull
    exact absurd hnull (hnot "null" (c := 'n') (by decide) (by decide))
  · rename_i htrue
    exact absurd htrue (hnot "true" (c := 't') (by decide) (by decide))
  · rename_i hfalse
    exact absurd hfalse (hnot "false" (c := 's') (by decide) (by decide))
  · rw [Numeral.number?_read?_text h]
    rfl

theorem scans_int {n : Int} (h : Number.InRange (.int n)) :
    Scans (Number.int n).text [.atom (.number (.int n))] := by
  have hchars : ∀ c ∈ '-' :: Decimal.digitChars, isWordChar c = true :=
    List.all_eq_true.1 (by decide)
  have hne : (Number.int n).text ≠ [] := by
    cases n with
    | ofNat n =>
        rw [Numeral.text_ofNat]
        exact Nat.toDigits_ne_nil
    | negSucc n =>
        rw [Numeral.text_negSucc]
        exact List.cons_ne_nil _ _
  exact scans_word hne (fun c hc => hchars c (List.mem_cons.2 (Numeral.mem_text_int hc)))
    (word?_text_int h)

/-- The text of a value with integers for numbers is read as its tokens. -/
theorem scans_write {v : Json} (h : v.Holds fun n => n.IsInteger ∧ n.InRange) :
    Scans v.write v.tokens := by
  induction h with
  | null => exact scans_word (by decide) (List.all_eq_true.1 (by decide)) rfl
  | bool b =>
      cases b with
      | false => exact scans_word (by decide) (List.all_eq_true.1 (by decide)) rfl
      | true => exact scans_word (by decide) (List.all_eq_true.1 (by decide)) rfl
  | @number n h =>
      cases n with
      | int n => exact scans_int h.2
      | float x => exact h.1.elim
  | text s => exact scans_quote s
  | array h ih =>
      rw [write, tokens]
      exact Scans.cons rfl (scans_writeItems ih (scans_single rfl) rfl)
  | object h ih =>
      rw [write, tokens]
      exact Scans.cons rfl (scans_writeFields ih (scans_single rfl) rfl)

theorem scan_write {v : Json} (h : v.Holds fun n => n.IsInteger ∧ n.InRange) :
    scan v.write = some v.tokens := by
  have hscan := scans_write h [] fun _ hc => nomatch hc
  rw [List.append_nil] at hscan
  rw [scan, hscan]
  exact congrArg some (List.append_nil v.tokens)

end Values

/-- A single value carried by a token holds no other, and an integer in it has 64 bits. -/
def IsSimple : Token → Prop
  | .atom value => value.Holds Number.InRange ∧ ∀ depth, value.Nests depth
  | _ => True

section Simple

variable {c : Char} {ts : List Token} {state next : State}

theorem isSimple_word {cs : List Char} {value : Json} (h : word? cs = some value) :
    IsSimple (.atom value) := by
  unfold word? at h
  split at h
  · cases h
    exact ⟨.null, fun _ => .null⟩
  · cases h
    exact ⟨.bool true, fun _ => .bool true⟩
  · cases h
    exact ⟨.bool false, fun _ => .bool false⟩
  · obtain ⟨n, hn, rfl⟩ := Option.map_eq_some_iff.1 h
    obtain ⟨x, -, hx⟩ := Option.bind_eq_some_iff.1 hn
    exact ⟨.number (Numeral.inRange_of_number? hx), fun _ => .number n⟩

theorem isSimple_text (s : String) : IsSimple (.atom (.text s)) :=
  ⟨.text s, fun _ => .text s⟩

theorem single?_ne_atom (c : Char) (value : Json) : single? c ≠ some (.atom value) := by
  intro h
  simp only [single?] at h
  repeat' split at h
  all_goals cases h

theorem isSimple_single {t : Token} (h : single? c = some t) : IsSimple t := by
  cases t with
  | atom value => exact absurd h (single?_ne_atom c value)
  | _ => trivial

theorem isSimple_start (h : start c = some (ts, next)) : ∀ t ∈ ts, IsSimple t := by
  rw [start] at h
  split at h
  · cases h
    exact fun _ ht => nomatch ht
  split at h
  · cases h
    exact fun _ ht => nomatch ht
  split at h
  · cases h
    exact fun _ ht => nomatch ht
  · obtain ⟨t, ht, heq⟩ := Option.map_eq_some_iff.1 h
    cases heq
    intro u hu
    rw [List.mem_singleton.1 hu]
    exact isSimple_single ht

/-- A step completes only simple tokens. -/
theorem isSimple_step (h : step state c = some (ts, next)) : ∀ t ∈ ts, IsSimple t := by
  have hnone {next' : State} (h : some (([] : List Token), next') = some (ts, next)) :
      ∀ t ∈ ts, IsSimple t := by
    cases h
    exact fun _ ht => nomatch ht
  cases state with
  | between => exact isSimple_start h
  | word read =>
      rw [step] at h
      split at h
      · exact hnone h
      · obtain ⟨value, hvalue, h⟩ := Option.bind_eq_some_iff.1 h
        obtain ⟨⟨us, after⟩, hstart, h⟩ := Option.bind_eq_some_iff.1 h
        cases h
        intro t ht
        rcases List.mem_cons.1 ht with rfl | ht
        · exact isSimple_word hvalue
        · exact isSimple_start hstart t ht
  | string read =>
      rw [step] at h
      split at h
      · cases h
        intro t ht
        rw [List.mem_singleton.1 ht]
        exact isSimple_text _
      split at h
      · exact hnone h
      split at h
      · cases h
      · exact hnone h
  | escape read =>
      rw [step] at h
      split at h
      · exact hnone h
      · obtain ⟨e, -, h⟩ := Option.map_eq_some_iff.1 h
        exact hnone (congrArg some h)
  | unit high digits value read =>
      rw [step] at h
      obtain ⟨d, -, h⟩ := Option.bind_eq_some_iff.1 h
      split at h
      · exact hnone h
      · obtain ⟨after, -, h⟩ := Option.bind_eq_some_iff.1 h
        exact hnone h
  | lowEscape high read =>
      rw [step] at h
      split at h
      · exact hnone h
      · cases h
  | lowUnit high read =>
      rw [step] at h
      split at h
      · exact hnone h
      · cases h

/-- The tokens of a text are simple. -/
theorem isSimple_scanFrom {cs : List Char} (h : scanFrom state cs = some ts) :
    ∀ t ∈ ts, IsSimple t := by
  induction cs generalizing state ts with
  | nil =>
      cases state with
      | between =>
          cases h
          exact fun _ ht => nomatch ht
      | word read =>
          obtain ⟨value, hvalue, rfl⟩ := Option.map_eq_some_iff.1 h
          intro t ht
          rw [List.mem_singleton.1 ht]
          exact isSimple_word hvalue
      | _ => cases h
  | cons c cs ih =>
      rw [scanFrom_cons] at h
      obtain ⟨⟨us, after⟩, hstep, h⟩ := Option.bind_eq_some_iff.1 h
      obtain ⟨vs, hrest, rfl⟩ := Option.map_eq_some_iff.1 h
      intro t ht
      rcases List.mem_append.1 ht with ht | ht
      · exact isSimple_step hstep t ht
      · exact ih hrest t ht

end Simple

end Token

end LinkSieve.Json
