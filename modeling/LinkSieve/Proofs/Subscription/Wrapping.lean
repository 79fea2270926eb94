import LinkSieve.Proofs.Base64
import LinkSieve.Proofs.Text.Split
import LinkSieve.Subscription.Body

/-!
# Wrapped bodies

A list of links that has been wrapped in Base64 is recognised and comes out as it went in, wherever
white space has been put into the Base64 and however much of its padding has been left out. It is
never taken for a plain list: the texts by which a plain list is recognised hold a colon, and
neither Base64 nor white space does.
-/

namespace LinkSieve.Subscription

open Base64 (Dialect)

/-- A text with white space put in wherever one likes. -/
inductive Spread : List Char → List Char → Prop where
  | nil : Spread [] []
  | keep {c : Char} {cs ds : List Char} : Spread cs ds → Spread (c :: cs) (c :: ds)
  | blank {c : Char} {cs ds : List Char} :
      Text.isBlank c = true → Spread cs ds → Spread cs (c :: ds)

/-- What a body may be wrapped in: its standard Base64, less some of the padding at its end, with
white space put in. -/
inductive Wraps (body : List UInt8) : List UInt8 → Prop where
  | intro {symbols spread : List Char} (missing : Nat) :
      symbols ++ List.replicate missing '=' = Base64.encode .standard body →
      Spread symbols spread → Wraps body (Text.Utf8.encode spread)

section Spread

variable {cs ds : List Char}

theorem Spread.mem (h : Spread cs ds) {c : Char} (hc : c ∈ ds) :
    c ∈ cs ∨ Text.isBlank c = true := by
  induction h with
  | nil => exact .inl hc
  | keep _ ih =>
      rcases List.mem_cons.1 hc with rfl | hc
      · exact .inl List.mem_cons_self
      · exact (ih hc).imp (List.mem_cons_of_mem _) id
  | blank hblank _ ih =>
      rcases List.mem_cons.1 hc with rfl | hc
      · exact .inr hblank
      · exact ih hc

/-- Taking white space out again leaves the text, if it holds none itself. -/
theorem Spread.filter_eq (h : Spread cs ds) (hcs : ∀ c ∈ cs, Text.isBlank c = false) :
    ds.filter (!Text.isBlank ·) = cs := by
  induction h with
  | nil => rfl
  | keep _ ih =>
      have hrest := ih fun d hd => hcs d (List.mem_cons_of_mem _ hd)
      rw [List.filter_cons_of_pos (by rw [hcs _ List.mem_cons_self]; rfl), hrest]
  | blank hblank _ ih => rw [List.filter_cons_of_neg (by rw [hblank]; simp), ih hcs]

end Spread

section Unwrapping

variable {symbols : List Char} {missing : Nat} {body wrapped : List UInt8}

theorem not_blank_of_mem_encode {d : Dialect} {c : Char} (hc : c ∈ Base64.encode d body) :
    Text.isBlank c = false ∧ c ≠ ':' := by
  have hsymbol : ∀ n < 64, ∀ urlSafe, Text.isBlank (Base64.symbol urlSafe n) = false ∧
      Base64.symbol urlSafe n ≠ ':' := by
    decide
  rcases Base64.mem_encode d body hc with ⟨n, hn, rfl⟩ | rfl
  · exact hsymbol n hn d.urlSafe
  · decide

theorem mem_of_append_eq (h : symbols ++ List.replicate missing '=' = Base64.encode .standard body)
    {c : Char} (hc : c ∈ symbols) : c ∈ Base64.encode .standard body :=
  h ▸ List.mem_append_left _ hc

/-- No more padding can be missing than there is. -/
theorem le_padding (h : symbols ++ List.replicate missing '=' = Base64.encode .standard body) :
    missing ≤ Base64.padding .standard body := by
  apply Nat.le_of_not_lt
  intro hmore
  obtain ⟨extra, hextra⟩ : ∃ extra, missing = extra + 1 + Base64.padding .standard body :=
    ⟨missing - Base64.padding .standard body - 1, by omega⟩
  rw [Base64.encode_eq, hextra, ← List.replicate_append_replicate, ← List.append_assoc] at h
  have hpad : '=' ∈ (Base64.groups body).map (Base64.symbol Dialect.standard.urlSafe) := by
    rw [← List.append_cancel_right h]
    exact List.mem_append_right _ (List.mem_replicate.2 ⟨Nat.succ_ne_zero extra, rfl⟩)
  obtain ⟨g, hg, heq⟩ := List.mem_map.1 hpad
  exact Base64.symbol_ne_pad g (Base64.lt_of_mem_groups g hg) _ heq

/-- Padding makes up for what is missing. -/
theorem pad_eq (h : symbols ++ List.replicate missing '=' = Base64.encode .standard body) :
    Base64.pad symbols = Base64.encode .standard body := by
  have hle := le_padding h
  have hsize : Text.Utf8.size symbols = symbols.length := by
    rw [Text.Utf8.size, Text.Utf8.encode_of_ascii fun c hc =>
      Base64.ascii_of_mem_encode _ _ (mem_of_append_eq h hc), List.length_map]
  have hlength : symbols.length + missing =
      (Base64.groups body).length + Base64.padding .standard body := by
    have hlengths := congrArg List.length h
    rw [Base64.encode_eq] at hlengths
    simpa using hlengths
  have hpadding : Base64.padding .standard body = (4 - (Base64.groups body).length % 4) % 4 := rfl
  have hmissing : (4 - symbols.length % 4) % 4 = missing := by omega
  rw [Base64.pad, hsize, hmissing, h]

/-- Of a text that has been padded, the second attempt reads nothing that the first does not. -/
theorem decodeStandard_eq_ok {cs : List Char} {data : List UInt8} :
    decodeStandard (Text.Utf8.encode (Base64.pad cs)) = .ok data ↔
      Base64.decode .standard (Text.Utf8.encode (Base64.pad cs)) = .ok data := by
  rw [decodeStandard]
  cases hfirst : Base64.decode .standard (Text.Utf8.encode (Base64.pad cs)) with
  | ok found => exact Iff.rfl
  | error e =>
      constructor
      · intro hsecond
        exact hfirst.symm.trans (Base64.decode_pad_of_bare hsecond)
      · intro h
        cases h

/-- A printable body is unwrapped from whatever it is wrapped in. -/
theorem unwrap?_of_wraps (hbody : isPrintable body = true) (h : Wraps body wrapped) :
    unwrap? wrapped = some body := by
  obtain @⟨symbols, spread, missing, happend, hspread⟩ := h
  have hfilter := hspread.filter_eq fun c hc =>
    (not_blank_of_mem_encode (mem_of_append_eq happend hc)).1
  have hdecode : decodeStandard (Text.Utf8.encode (Base64.pad symbols)) = .ok body := by
    rw [decodeStandard_eq_ok, pad_eq happend, Base64.decode_encode]
  simp only [unwrap?, Text.Utf8.decodeLossy_encode, hfilter, hdecode, hbody, if_true]

/-- What a body is wrapped in holds no colon, and so no text by which a plain list is known. -/
theorem hasMarker_of_wraps (h : Wraps body wrapped) : hasMarker wrapped = false := by
  obtain @⟨symbols, spread, missing, happend, hspread⟩ := h
  have hcolon (c : Char) (hc : c ∈ spread) : c ≠ ':' := by
    rcases hspread.mem hc with hc | hblank
    · exact (not_blank_of_mem_encode (mem_of_append_eq happend hc)).2
    · rintro rfl
      exact absurd hblank (by decide)
  have hbyte (b : UInt8) (hb : b ∈ Text.Utf8.encode spread) : b ≠ 0x3A := by
    rintro rfl
    obtain ⟨c, hc, hmem⟩ := List.mem_flatMap.1 hb
    have hnat := Text.Utf8.toNat_eq_of_mem_utf8EncodeChar hmem (by decide)
    exact hcolon c hc (Char.toNat_inj.1 hnat)
  have hmarker : ∀ marker ∈ markers, (0x3A : UInt8) ∈ Text.Utf8.encode marker.toList := by
    decide
  rw [hasMarker, List.any_eq_false]
  intro marker hmem hoccurs
  exact hbyte 0x3A ((Text.occursIn_iff.1 hoccurs).subset (hmarker marker hmem)) rfl

end Unwrapping

section Lists

variable {list : List Char}

/-- The printable characters of ASCII, with tabs and line breaks. -/
def IsPrintableChar (c : Char) : Prop :=
  (0x20 ≤ c.toNat ∧ c.toNat ≤ 0x7E) ∨ c = '\t' ∨ c = '\n' ∨ c = '\r'

instance : DecidablePred IsPrintableChar :=
  fun _ => inferInstanceAs (Decidable (_ ∨ _))

theorem IsPrintableChar.ascii {c : Char} (h : IsPrintableChar c) : c.toNat < 0x80 := by
  rcases h with ⟨-, hle⟩ | rfl | rfl | rfl
  · omega
  · decide
  · decide
  · decide

theorem isPrintable_encode (h : ∀ c ∈ list, IsPrintableChar c) :
    isPrintable (Text.Utf8.encode list) = true := by
  have hascii (c : Char) (hc : c ∈ list) : c.toNat < 0x80 := (h c hc).ascii
  rw [Text.Utf8.encode_of_ascii hascii, isPrintable, List.all_map, List.all_eq_true]
  intro c hc
  have hlt := hascii c hc
  have hbyte : (UInt8.ofNat c.toNat).toNat = c.toNat := by
    rw [UInt8.toNat_ofNat']
    omega
  rcases h c hc with ⟨hlow, hhigh⟩ | rfl | rfl | rfl
  · simp [UInt8.le_iff_toNat_le, hbyte, hlow, hhigh]
  · decide
  · decide
  · decide

theorem hasMarker_encode {marker : String} (hmarker : marker ∈ markers)
    (h : marker.toList <:+: list) : hasMarker (Text.Utf8.encode list) = true := by
  obtain ⟨before, after, rfl⟩ := h
  refine List.any_eq_true.2 ⟨marker, hmarker, Text.occursIn_iff.2 ?_⟩
  rw [Text.Utf8.encode_append, Text.Utf8.encode_append]
  exact List.infix_append _ _ _

/-- A printable list of links is recognised as wrapped, and comes out as it went in, whatever it is
wrapped in. -/
theorem text_of_wraps {wrapped : List UInt8} (hprintable : ∀ c ∈ list, IsPrintableChar c)
    (hlinks : ∃ marker ∈ markers, marker.toList <:+: list)
    (hwraps : Wraps (Text.Utf8.encode list) wrapped) :
    Form.ofBody wrapped = .wrapped ∧ text wrapped = list := by
  obtain ⟨marker, hmarker, hinfix⟩ := hlinks
  have hunwrap : unwrap wrapped = Text.Utf8.encode list := by
    rw [unwrap, unwrap?_of_wraps (isPrintable_encode hprintable) hwraps, Option.getD_some]
  have hform : Form.ofBody wrapped = .wrapped := by
    rw [Form.ofBody, hasMarker_of_wraps hwraps, hunwrap, hasMarker_encode hmarker hinfix]
    rfl
  refine ⟨hform, ?_⟩
  rw [text, hform]
  simp only [hunwrap, Text.Utf8.decodeLossy_encode]

theorem text_of_wraps_unpadded :
    Form.ofBody (Text.Utf8.encode "\u00A0c3M6\nLy8".toList) = .wrapped ∧
      text (Text.Utf8.encode "\u00A0c3M6\nLy8".toList) = "ss://".toList :=
  have hspread : Spread "c3M6Ly8".toList "\u00A0c3M6\nLy8".toList :=
    .blank (by decide) (.keep (.keep (.keep (.keep (.blank (by decide)
      (.keep (.keep (.keep .nil))))))))
  have hbase : "c3M6Ly8".toList ++ List.replicate 1 '=' =
      Base64.encode .standard (Text.Utf8.encode "ss://".toList) := by decide
  text_of_wraps (Text.forall_of_all (by decide)) ⟨"ss://", by decide, List.infix_refl _⟩
    (.intro 1 hbase hspread)

end Lists

end LinkSieve.Subscription
