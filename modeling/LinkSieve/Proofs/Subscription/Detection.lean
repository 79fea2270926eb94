import LinkSieve.Proofs.Subscription.Report
import LinkSieve.Proofs.Subscription.Wrapping

/-!
# What is taken for wrapped

A body that holds a character foreign to Base64 is read as it stands. A line that some protocol
claims holds one, a colon, so a list with such a line is always read as it stands.

Wrapped in Base64 the same list is recognised by the schemes in it, and here the two recognisers
differ: a protocol claims a line whatever the case of the letters in its scheme, while a wrapped
list is known by schemes in lower case only. So wrapping a list leaves its report as it is just if
such a scheme stands in it; of any other list nothing is left but one rejected line.
-/

namespace LinkSieve.Subscription

open Link (Dispatcher Protocol)

section Lines

variable {line : List Char} {ls : List (List Char)}

/-- What stands between two line breaks: it holds no line feed, and no carriage return ends it. -/
def IsLine (line : List Char) : Prop :=
  '\n' ∉ line ∧ line.getLast? ≠ some '\r'

/-- A line that is one word and no comment, such as a link or a text in Base64. -/
structure IsWord (line : List Char) : Prop where
  ne_nil : line ≠ []
  not_blank : ∀ c ∈ line, Text.isBlank c = false
  not_comment : line.head? ≠ some '#'

theorem IsWord.isCandidate (h : IsWord line) : isCandidate line = true := by
  have htrim : Text.trim line = line :=
    Text.trimBy_eq_self (fun c hc => h.not_blank c (List.mem_of_mem_head? hc))
      (fun c hc => h.not_blank c (List.mem_of_getLast? hc))
  rw [Subscription.isCandidate, htrim, List.isEmpty_eq_false_iff.2 h.ne_nil,
    decide_eq_true h.not_comment]
  rfl

theorem IsWord.isLine (h : IsWord line) : IsLine line := by
  constructor
  · intro hfeed
    exact absurd (h.not_blank _ hfeed) (by decide)
  · intro hreturn
    exact absurd (h.not_blank _ (List.mem_of_getLast? hreturn)) (by decide)

/-- The lines of a text that is made of lines are those of them that can be links. -/
theorem lines_intercalate (hne : ls ≠ [])
    (h : ∀ line ∈ ls, IsLine line) :
    lines (List.intercalate ['\n'] ls) = ls.filter isCandidate := by
  have hreturn : ls.map dropReturn = ls :=
    Text.map_eq_self fun line hline => if_neg (h line hline).2
  rw [lines, List.splitOn_intercalate '\n' (fun line hline => (h line hline).1) hne, hreturn]

end Lines

section Foreign

variable {list : List Char} {body : List UInt8} {c : Char}

/-- The characters, neither blank nor symbols, that standard Base64 cannot hold. -/
def IsForeign (c : Char) : Prop :=
  c.toNat < 0x80 ∧ Text.isBlank c = false ∧ ¬Base64.IsBase64 false (UInt8.ofNat c.toNat)

instance : DecidablePred IsForeign :=
  fun _ => inferInstanceAs (Decidable (_ ∧ _))

theorem not_foreign_of_mem_encode (h : c ∈ Base64.encode .standard body) : ¬IsForeign c := by
  have hsymbol : ∀ n < 64, ¬IsForeign (Base64.symbol false n) := by decide
  rcases Base64.mem_encode _ _ h with ⟨n, hn, rfl⟩ | rfl
  · exact hsymbol n hn
  · decide

theorem unwrap?_of_foreign (hc : c ∈ list) (hforeign : IsForeign c) :
    unwrap? (Text.Utf8.encode list) = none := by
  obtain ⟨hascii, hblank, hbyte⟩ := hforeign
  have hkept : c ∈ Base64.pad (list.filter (!Text.isBlank ·)) :=
    List.mem_append_left _ (List.mem_filter.2 ⟨hc, by rw [hblank]; rfl⟩)
  have hmem : UInt8.ofNat c.toNat ∈
      Text.Utf8.encode (Base64.pad (list.filter (!Text.isBlank ·))) := by
    refine List.mem_flatMap.2 ⟨c, hkept, ?_⟩
    rw [Text.Utf8.utf8EncodeChar_of_ascii hascii]
    exact List.mem_singleton_self _
  simp only [unwrap?, Text.Utf8.decodeLossy_encode]
  split
  · rename_i inner hinner
    exact absurd (Base64.isBase64_of_decode (decodeStandard_eq_ok.1 hinner) _ hmem) hbyte
  · rfl

theorem text_of_unwrap?_eq_none (h : unwrap? body = none) :
    text body = Text.Utf8.decodeLossy body := by
  have hsame : unwrap body = body := by rw [unwrap, h, Option.getD_none]
  rw [text, Form.ofBody, hsame]
  cases hasMarker body <;> rfl

/-- A list that holds a foreign character is read as it stands. -/
theorem text_of_foreign (hc : c ∈ list) (hforeign : IsForeign c) :
    text (Text.Utf8.encode list) = list := by
  rw [text_of_unwrap?_eq_none (unwrap?_of_foreign hc hforeign), Text.Utf8.decodeLossy_encode]

end Foreign

section Wrapping

variable {list : List Char} {body : List UInt8}

/-- A body in standard Base64. -/
def wrap (body : List UInt8) : List UInt8 :=
  Text.Utf8.encode (Base64.encode .standard body)

theorem Spread.refl (cs : List Char) : Spread cs cs := by
  induction cs with
  | nil => exact .nil
  | cons c cs ih => exact .keep ih

theorem wraps_wrap (body : List UInt8) : Wraps body (wrap body) :=
  .intro 0 (List.append_nil _) (Spread.refl _)

theorem isWord_encodeText (h : list ≠ []) : IsWord (Base64.encodeText .standard list) where
  ne_nil := Base64.encodeText_ne_nil .standard h
  not_blank _ hc := (not_blank_of_mem_encode hc).1
  not_comment hhead := not_foreign_of_mem_encode (List.mem_of_mem_head? hhead) (by decide)

/-- In a list of ASCII characters the bytes of a marker are the marker. -/
theorem hasMarker_encode_iff (h : ∀ c ∈ list, c.toNat < 0x80) :
    hasMarker (Text.Utf8.encode list) = true ↔ ∃ marker ∈ markers, marker.toList <:+: list := by
  constructor
  · intro hmarker
    obtain ⟨marker, hmem, hoccurs⟩ := List.any_eq_true.1 hmarker
    obtain ⟨before, after, hbytes⟩ := Text.occursIn_iff.1 hoccurs
    rw [Text.Utf8.encode_of_ascii h] at hbytes
    obtain ⟨front, back, rfl, hfront, -⟩ := List.map_eq_append_iff.1 hbytes.symm
    obtain ⟨start, middle, rfl, -, hmiddle⟩ := List.map_eq_append_iff.1 hfront
    have hascii (c : Char) (hc : c ∈ middle) : c.toNat < 0x80 :=
      h c (List.mem_append_left _ (List.mem_append_right _ hc))
    have heq : middle = marker.toList := by
      rw [← Text.Utf8.decodeLossy_encode middle, Text.Utf8.encode_of_ascii hascii, hmiddle,
        Text.Utf8.decodeLossy_encode]
    exact ⟨marker, hmem, heq ▸ List.infix_append start middle back⟩
  · rintro ⟨marker, hmem, hinfix⟩
    exact hasMarker_encode hmem hinfix

/-- A printable body comes out of its wrapping if links show in it; else the Base64 stays. -/
theorem text_wrap (hprintable : isPrintable body = true) :
    text (wrap body) =
      if hasMarker body then Text.Utf8.decodeLossy body else Base64.encode .standard body := by
  have hunwrap : unwrap (wrap body) = body := by
    rw [unwrap, unwrap?_of_wraps hprintable (wraps_wrap body), Option.getD_some]
  have hplain : hasMarker (wrap body) = false := hasMarker_of_wraps (wraps_wrap body)
  cases hmarker : hasMarker body with
  | true =>
      have hform : Form.ofBody (wrap body) = .wrapped := by
        rw [Form.ofBody, hplain, hunwrap, hmarker]
        rfl
      rw [text, hform]
      simp only [hunwrap, if_true]
  | false =>
      have hform : Form.ofBody (wrap body) = .unknown := by
        rw [Form.ofBody, hplain, hunwrap, hmarker]
        rfl
      rw [text, hform]
      exact Text.Utf8.decodeLossy_encode _

end Wrapping

namespace Report

section Claimed

variable {line : String}

theorem colon_mem_of_claims {p : Protocol} (h : p.claims line = true) : ':' ∈ line.toList := by
  obtain ⟨scheme, -, hscheme⟩ := List.any_eq_true.1 h
  obtain ⟨rest, hrest⟩ := Link.hasScheme_iff.1 hscheme
  obtain ⟨-, hdrop⟩ := Link.afterScheme?_eq_some hrest
  refine List.mem_of_mem_drop (i := scheme.toList.length) ?_
  rw [hdrop]
  exact List.mem_cons_self

/-- No dispatcher accepts a line without a colon. -/
theorem process_of_no_colon (d : Dispatcher) (h : ':' ∉ line.toList) :
    ∃ r, d.process line = .error r := by
  have hfind : d.canonicalizers.find? (·.protocol.claims line) = none :=
    List.find?_eq_none.2 fun c _ hclaims => h (colon_mem_of_claims hclaims)
  rw [Dispatcher.process_eq, hfind]
  cases Link.checkLength line with
  | ok _ => exact ⟨.unsupported, rfl⟩
  | error r => exact ⟨r, rfl⟩

end Claimed

section Judged

variable {ε : Type} [Link.Refusal ε] {judge : String → Except ε String} {dedup : Bool}
  {body : List UInt8}

/-- Whether there are accepted links does not depend on whether duplicates are dropped. -/
theorem accepted_ofBody_eq_nil : (ofBody judge dedup body).accepted = [] ↔
    (candidates body).filterMap (accepted? judge) = [] := by
  have hlines := (accounts_ofLines judge (candidates body)).accepted
  rw [← hlines, ofBody]
  cases dedup with
  | false => rfl
  | true => exact Link.dedup_eq_nil

/-- Wherever a line can be a link, a link is accepted or the line itself is rejected. -/
theorem entry_of_mem (judge : String → Except ε String) (dedup : Bool) {line : String}
    (h : line ∈ candidates body) :
    (ofBody judge dedup body).accepted ≠ [] ∨
      ∃ reason, ⟨reason, line⟩ ∈ (ofBody judge dedup body).rejected := by
  cases hline : judge line with
  | ok link =>
      left
      rw [ne_eq, accepted_ofBody_eq_nil]
      exact List.ne_nil_of_mem (List.mem_filterMap.2 ⟨line, h, accepted?_eq_some_iff.2 hline⟩)
  | error e =>
      right
      rw [rejected_ofBody]
      exact ⟨_, List.mem_filterMap.2 ⟨line, h, rejected?_eq_some_iff.2 ⟨e, hline, rfl⟩⟩⟩

end Judged

section Wrapped

variable {d : Dispatcher} {dedup : Bool} {list : List Char}

/-- A wrapped list in which no marker shows is left as one line, and the line is rejected. -/
theorem ofBody_wrap_of_no_marker (d : Dispatcher) (dedup : Bool) (hne : list ≠ [])
    (hlist : ∀ c ∈ list, IsPrintableChar c)
    (hmarker : hasMarker (Text.Utf8.encode list) = false) :
    ∃ r, ofBody d.process dedup (wrap (Text.Utf8.encode list)) =
      ⟨[], [⟨r, String.ofList (Base64.encodeText .standard list)⟩]⟩ := by
  have hword := isWord_encodeText hne
  have hcolon : ':' ∉ (String.ofList (Base64.encodeText .standard list)).toList := by
    rw [String.toList_ofList]
    exact fun hc => not_foreign_of_mem_encode hc (by decide)
  have htext : text (wrap (Text.Utf8.encode list)) = Base64.encodeText .standard list := by
    rw [text_wrap (isPrintable_encode hlist), hmarker]
    rfl
  generalize Base64.encodeText .standard list = symbols at hword hcolon htext ⊢
  have hcandidates : candidates (wrap (Text.Utf8.encode list)) = [String.ofList symbols] := by
    have hone := lines_intercalate (List.cons_ne_nil symbols [])
      (List.forall_mem_singleton.2 hword.isLine)
    rw [List.intercalate_singleton, List.filter_cons_of_pos hword.isCandidate] at hone
    rw [candidates, htext, hone]
    rfl
  obtain ⟨r, hr⟩ := process_of_no_colon d hcolon
  have hreport : ofLines d.process [String.ofList symbols] =
      ⟨[], [⟨r.reason, String.ofList symbols⟩]⟩ := by
    have hone : ofLines d.process [String.ofList symbols] =
        empty.cons (String.ofList symbols) (d.process (String.ofList symbols)) := rfl
    rw [hone, hr]
    rfl
  refine ⟨r.reason, ?_⟩
  rw [ofBody, hcandidates, hreport]
  cases dedup <;> rfl

/-- A report says the same of a list of links and of the list wrapped in Base64 just if one of
the schemes by which lists are recognised stands somewhere in it. -/
theorem ofBody_wrap_eq_iff (hlist : ∀ c ∈ list, IsPrintableChar c)
    (hclaimed : ∃ line ∈ lines list, ∃ p : Protocol, p.claims (String.ofList line) = true) :
    ofBody d.process dedup (wrap (Text.Utf8.encode list)) =
        ofBody d.process dedup (Text.Utf8.encode list) ↔
      ∃ marker ∈ markers, marker.toList <:+: list := by
  obtain ⟨line, hline, p, hclaims⟩ := hclaimed
  have hcolon : ':' ∈ line := by
    have hmem := colon_mem_of_claims hclaims
    rwa [String.toList_ofList] at hmem
  have hplain : text (Text.Utf8.encode list) = list :=
    text_of_foreign ((mem_of_mem_lines hline).2 _ hcolon) (by decide)
  rw [← hasMarker_encode_iff fun c hc => (hlist c hc).ascii]
  constructor
  · intro hsame
    by_contra hmarker
    have hentry : String.ofList line ∈ candidates (Text.Utf8.encode list) := by
      rw [candidates, hplain]
      exact List.mem_map_of_mem hline
    obtain ⟨r, hwrapped⟩ := ofBody_wrap_of_no_marker d dedup
      (List.ne_nil_of_mem ((mem_of_mem_lines hline).2 _ hcolon)) hlist (Bool.eq_false_iff.2 hmarker)
    rw [hsame] at hwrapped
    rcases entry_of_mem d.process dedup hentry with haccepted | ⟨reason, hrejected⟩
    · exact haccepted (congrArg Report.accepted hwrapped)
    · rw [hwrapped, List.mem_singleton] at hrejected
      have heq := String.ofList_inj.1 (congrArg RejectedLine.line hrejected)
      exact not_foreign_of_mem_encode (heq ▸ hcolon) (by decide)
  · intro hmarker
    have htext : text (wrap (Text.Utf8.encode list)) = text (Text.Utf8.encode list) := by
      rw [text_wrap (isPrintable_encode hlist), hmarker, hplain, Text.Utf8.decodeLossy_encode]
      rfl
    rw [ofBody, ofBody, candidates, candidates, htext]

theorem ofBody_wrap_eq_lower :
    ofBody (Dispatcher.ofRules .empty .empty).process true
        (wrap (Text.Utf8.encode "#x\r\nHY2://u@a.b:1\nhy2://u".toList)) =
      ofBody (Dispatcher.ofRules .empty .empty).process true
        (Text.Utf8.encode "#x\r\nHY2://u@a.b:1\nhy2://u".toList) :=
  have hline : "HY2://u@a.b:1".toList ∈ lines "#x\r\nHY2://u@a.b:1\nhy2://u".toList := by decide
  (ofBody_wrap_eq_iff (Text.forall_of_all (by decide)) ⟨_, hline, .hysteria2, rfl⟩).2
    ⟨"hy2://", by decide, Text.occursIn_iff.1 (by decide)⟩

/-- A link whose scheme is in upper case is accepted, but not from within Base64. -/
theorem ofBody_wrap_ne_upper :
    (∀ c ∈ "VLESS://u@a.com:1".toList, IsPrintableChar c) ∧
      (∃ line ∈ lines "VLESS://u@a.com:1".toList,
        Protocol.vless.claims (String.ofList line) = true) ∧
      ofBody (Dispatcher.ofRules .empty .empty).process false
          (Text.Utf8.encode "VLESS://u@a.com:1".toList) =
        ⟨["vless://u@a.com:1"], []⟩ ∧
      ofBody (Dispatcher.ofRules .empty .empty).process false
          (wrap (Text.Utf8.encode "VLESS://u@a.com:1".toList)) =
        ⟨[], [⟨"unsupported protocol", "VkxFU1M6Ly91QGEuY29tOjE="⟩]⟩ := by
  refine ⟨Text.forall_of_all (by decide), ⟨"VLESS://u@a.com:1".toList, by decide, rfl⟩, rfl, rfl⟩

end Wrapped

end Report

end LinkSieve.Subscription
