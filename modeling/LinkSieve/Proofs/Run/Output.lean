import LinkSieve.Proofs.Link.Canonical
import LinkSieve.Proofs.Subscription.Detection
import LinkSieve.Run.Filtering

/-!
# The output reads back

The text of the accepted links, with or without a header, is a subscription again, and its lines
that can be links are the accepted links. A link is one word, so it can neither break its line nor
be passed over; every line of a header is passed over, since it is a comment or blank; and both
hold characters that keep the text from being taken for Base64.
-/

namespace LinkSieve.Subscription

open Link (Protocol)

theorem not_blank_of_isGraphic {c : Char} (h : Url.IsGraphic c) : Text.isBlank c = false := by
  obtain ⟨hlow, hhigh⟩ := h
  simp only [Text.isBlank, Bool.or_eq_false_iff, Bool.and_eq_false_iff, decide_eq_false_iff_not,
    beq_eq_false_iff_ne]
  omega

/-- A canonical link is one word with a colon in it. -/
theorem isWord_of_isWritten {p : Protocol} {text : String} (h : p.IsWritten text) :
    IsWord text.toList ∧ ':' ∈ text.toList := by
  obtain ⟨s, hs, rest, htext⟩ := h.scheme
  obtain ⟨first, hfirst, halpha⟩ := (Protocol.isOpaqueScheme hs).letter
  have hhead : text.toList.head? = some first := by
    rw [htext, List.head?_append, hfirst]
    rfl
  refine ⟨⟨?_, fun c hc => not_blank_of_isGraphic (h.graphic c hc), ?_⟩, ?_⟩
  · rintro hnil
    rw [hnil] at hhead
    cases hhead
  · rw [hhead]
    rintro hsharp
    rw [Option.some.inj hsharp] at halpha
    exact absurd halpha (by decide)
  · rw [htext]
    exact List.mem_append_right _ List.mem_cons_self

/-- A line that is passed over: it can be no link and holds no line break. -/
structure IsPassedOver (line : List Char) : Prop where
  no_candidate : isCandidate line = false
  isLine : IsLine line

/-- Of lines that are passed over, and words after them, the words are left. -/
theorem lines_intercalate_append {head words : List (List Char)}
    (hhead : ∀ line ∈ head, IsPassedOver line) (hwords : ∀ line ∈ words, IsWord line)
    (hne : head ++ words ≠ []) : lines (List.intercalate ['\n'] (head ++ words)) = words := by
  have hlines : ∀ line ∈ head ++ words, IsLine line := by
    intro line hline
    rcases List.mem_append.1 hline with hline | hline
    · exact (hhead line hline).isLine
    · exact (hwords line hline).isLine
  have hnone : head.filter isCandidate = [] :=
    List.filter_eq_nil_iff.2 fun line hline => Bool.eq_false_iff.1 (hhead line hline).no_candidate
  have hall : words.filter isCandidate = words :=
    List.filter_eq_self.2 fun line hline => (hwords line hline).isCandidate
  rw [lines_intercalate hne hlines, List.filter_append, hnone, hall, List.nil_append]

section Header

variable {line : List Char} {title : String} {hours : Nat}

/-- A comment without control characters is passed over. -/
theorem isPassedOver_of_comment (hhead : line.head? = some '#')
    (h : ∀ c ∈ line, 0x20 ≤ c.toNat) : IsPassedOver line := by
  refine ⟨?_, fun hfeed => absurd (h _ hfeed) (by decide), fun hreturn => ?_⟩
  · rw [isCandidate, hhead]
    exact Bool.and_false _
  · exact absurd (h _ (List.mem_of_getLast? hreturn)) (by decide)

/-- No character of a clean title is a control character. -/
theorem above_of_mem_cleanTitle {c : Char} (h : c ∈ (cleanTitle title).toList) :
    0x20 ≤ c.toNat := by
  rw [cleanTitle, String.toList_ofList] at h
  obtain ⟨d, -, rfl⟩ := List.mem_map.1 h
  split
  · rename_i hd
    simp only [isTitleChar, Bool.or_eq_true, decide_eq_true_iff] at hd
    rcases hd with ((hd | rfl) | rfl) | rfl
    · have hrange := Url.toNat_of_isAlphanum hd
      omega
    · decide
    · decide
    · decide
  · decide

theorem isPassedOver_of_mem_header {line : String} (h : line ∈ header title hours) :
    IsPassedOver line.toList := by
  have hname : ∀ c ∈ "#profile-title: ".toList, 0x20 ≤ c.toNat := Text.forall_of_all (by decide)
  have hinterval : ∀ c ∈ "#profile-update-interval: ".toList, 0x20 ≤ c.toNat :=
    Text.forall_of_all (by decide)
  have hdigit : ∀ c ∈ Decimal.digitChars, 0x20 ≤ c.toNat := Text.forall_of_all (by decide)
  simp only [header, List.mem_cons, List.not_mem_nil, or_false] at h
  rcases h with rfl | rfl | rfl
  · apply isPassedOver_of_comment
    · rw [String.toList_append]
      rfl
    · intro c hc
      rw [String.toList_append, List.mem_append] at hc
      exact hc.elim (hname c) above_of_mem_cleanTitle
  · apply isPassedOver_of_comment
    · rw [String.toList_append]
      rfl
    · intro c hc
      rw [String.toList_append, List.mem_append] at hc
      rcases hc with hc | hc
      · exact hinterval c hc
      · have hdigits : (toString (max hours 1)).toList = Nat.toDigits 10 (max hours 1) :=
          String.toList_ofList
        rw [hdigits] at hc
        exact hdigit c (Decimal.mem_digitChars_of_mem_toDigits Decimal.isBase_ten hc)
  · exact ⟨rfl, List.not_mem_nil, nofun⟩

end Header

section Render

variable {links : List String} {title : Option String} {hours : Nat}

/-- The lines before the links. -/
def headOf (title : Option String) (hours : Nat) : List String :=
  match title with
  | some title => header title hours
  | none => []

theorem isPassedOver_of_mem_headOf {line : String} (h : line ∈ headOf title hours) :
    IsPassedOver line.toList := by
  cases title with
  | some title => exact isPassedOver_of_mem_header h
  | none => cases h

theorem toList_render : (render links title hours).toList =
    List.intercalate ['\n'] ((headOf title hours ++ links).map String.toList) := by
  have hrender : render links title hours =
      String.intercalate "\n" (headOf title hours ++ links) := by
    cases title <;> rfl
  rw [hrender, toList_joined]

/-- Unless it is empty, a text of links, with a header or without, holds a character that keeps it
from being taken for Base64. -/
theorem exists_foreign (h : ∀ link ∈ links, ':' ∈ link.toList)
    (hne : headOf title hours ++ links ≠ []) :
    ∃ c ∈ (render links title hours).toList, IsForeign c := by
  have hline : ∃ line ∈ headOf title hours ++ links, ∃ c ∈ line.toList, IsForeign c := by
    cases title with
    | some title =>
        refine ⟨_, List.mem_append_left links List.mem_cons_self, '#', ?_, by decide⟩
        rw [String.toList_append]
        exact List.mem_append_left _ (by decide)
    | none =>
        obtain ⟨link, hlink⟩ := List.exists_mem_of_ne_nil _ hne
        exact ⟨link, hlink, ':', h link hlink, by decide⟩
  obtain ⟨line, hline, c, hc, hforeign⟩ := hline
  refine ⟨c, ?_, hforeign⟩
  rw [toList_render]
  exact (Text.sublist_intercalate ['\n'] (List.mem_map_of_mem hline)).subset hc

/-- The lines of a rendered text that can be links are the links. -/
theorem candidates_render (h : ∀ link ∈ links, IsWord link.toList ∧ ':' ∈ link.toList) :
    candidates (Text.Utf8.encode (render links title hours).toList) = links := by
  have htext : (render links title hours).toList = _ := toList_render
  by_cases hne : headOf title hours ++ links = []
  · rw [hne] at htext
    rw [htext, (List.append_eq_nil_iff.1 hne).2]
    rfl
  · obtain ⟨c, hc, hforeign⟩ := exists_foreign (fun link hlink => (h link hlink).2) hne
    have hpassed : ∀ line ∈ (headOf title hours).map String.toList, IsPassedOver line :=
      List.forall_mem_map.2 fun _ => isPassedOver_of_mem_headOf
    have hwords : ∀ line ∈ links.map String.toList, IsWord line :=
      List.forall_mem_map.2 fun link hlink => (h link hlink).1
    have hlines : (headOf title hours).map String.toList ++ links.map String.toList ≠ [] := by
      rwa [← List.map_append, ne_eq, List.map_eq_nil_iff]
    rw [List.map_append] at htext
    rw [candidates, text_of_foreign hc hforeign, htext,
      lines_intercalate_append hpassed hwords hlines, List.map_map]
    exact Text.map_eq_self fun link _ => String.ofList_toList

end Render

end LinkSieve.Subscription

namespace LinkSieve.Run

open Subscription (Report)

/-- The output of a run, read as a subscription, has the accepted links as its lines, and each of
them is made of characters of ASCII that show. -/
theorem candidates_output (settings : Settings) (rules : Policy.RuleSet) (words : Policy.WordList)
    (body : List UInt8) :
    let finished := filter settings rules words body
    Subscription.candidates (Text.Utf8.encode finished.output.toList) = finished.report.accepted ∧
      ∀ link ∈ finished.report.accepted, ∀ c ∈ link.toList, Url.IsGraphic c := by
  have hwritten : ∀ link ∈ (filter settings rules words body).report.accepted,
      ∃ p : Link.Protocol, p.IsWritten link := by
    intro link hlink
    obtain ⟨line, -, hprocess⟩ := Report.exists_of_mem_accepted hlink
    exact Link.Dispatcher.exists_isWritten_of_process hprocess
  constructor
  · refine Subscription.candidates_render fun link hlink => ?_
    obtain ⟨p, hp⟩ := hwritten link hlink
    exact Subscription.isWord_of_isWritten hp
  · intro link hlink
    obtain ⟨p, hp⟩ := hwritten link hlink
    exact hp.graphic

end LinkSieve.Run
