import LinkSieve.Proofs.Link.Filtering
import LinkSieve.Proofs.Link.Hysteria2

/-!
# The two schemes of Hysteria2

A Hysteria2 link may have its scheme in a long and in a short form. What stands behind the scheme
decides alone what becomes of the line: under both schemes it is rejected for the same reason, or
accepted as links that differ in the scheme only.
-/

namespace LinkSieve.Link

open Outcome (Alike)

namespace Hysteria2

/-- A text under a scheme. -/
def under (scheme : String) (rest : List Char) : String :=
  String.ofList (scheme.toList ++ "://".toList ++ rest)

/-- URLs that differ in the scheme only. -/
structure SameUrl (s t : String) (a b : Url) : Prop where
  first : a.scheme = s
  second : b = { a with scheme := t }

/-- Links that differ in the scheme only. -/
structure SameLink (s t : String) (a b : ShareLink) : Prop where
  first : a.scheme = s
  second : b = { a with scheme := t }

/-- Texts that differ in the scheme only. -/
def SameText (s t : String) (a b : String) : Prop :=
  ∃ rest, a = under s rest ∧ b = under t rest

/-- Drafts that differ in the scheme only. -/
structure SameDraft (s t : String) (a b : Draft) : Prop where
  label : b.label = a.label
  params : b.params = a.params
  canonical : SameText s t a.canonical b.canonical

section Schemes

variable {s t : String}

theorem SameLink.sameText {a b : ShareLink} (h : SameLink s t a b) :
    SameText s t a.text b.text := by
  obtain ⟨rfl, rfl⟩ := h
  refine ⟨(a.userinfo.toList ++ '@' :: a.server.text) ++ a.tail, ?_, ?_⟩
  · rw [ShareLink.text, ShareLink.chars_eq, under, List.append_assoc (a.scheme.toList ++ _)]
  · rw [ShareLink.text, ShareLink.chars_eq, under, List.append_assoc (t.toList ++ _)]
    rfl

/-- What stands behind the scheme is read as the same URL, or is not a URL behind either. -/
theorem alike_read (hs : IsScheme s) (ht : IsScheme t) (rest : List Char) :
    Alike (SameUrl s t) (Url.read (under s rest)) (Url.read (under t rest)) := by
  rw [under, under, Url.read_spelled hs.isOpaque hs.isOpaque.map_lowerAscii,
    Url.read_spelled ht.isOpaque ht.isOpaque.map_lowerAscii, Url.readServed_none,
    Url.readServed_none]
  refine Alike.step fun found => .ok ⟨String.ofList_toList, ?_⟩
  simp only [Url.served, Url.withAuthority, Url.withTail, String.ofList_toList]

theorem portOverflows_under (hs : IsScheme s) (rest : List Char) :
    portOverflows (under s rest).toList = portOverflows ("://".toList ++ rest) := by
  have hcolon : ':' ∉ s.toList := by
    rcases hs with rfl | rfl <;> decide
  rw [under, String.toList_ofList, List.append_assoc, portOverflows, portOverflows,
    cutSlashes_append hcolon]
  rfl

theorem alike_readUrl (hs : IsScheme s) (ht : IsScheme t) (rest : List Char) :
    Alike (SameUrl s t) (readUrl title (under s rest)) (readUrl title (under t rest)) := by
  have hread := alike_read hs ht rest
  rw [readUrl, readUrl, portOverflows_under hs, portOverflows_under ht]
  generalize Url.read (under s rest) = x at hread ⊢
  generalize Url.read (under t rest) = y at hread ⊢
  cases hread with
  | error e => exact .error _
  | ok h => exact .ok h

/-- A link takes over the scheme of its URL and does not look at it otherwise. -/
theorem alike_link {a b : Url} (h : SameUrl s t a b) :
    Alike (SameLink s t) (link a) (link b) := by
  obtain ⟨hfirst, rfl⟩ := h
  rw [link, link]
  split
  · exact .error _
  · exact Alike.step fun server => .ok ⟨hfirst, rfl⟩

theorem alike_draft (hs : IsScheme s) (ht : IsScheme t) {rest : List Char}
    (hlength : checkLength (under t rest) = checkLength (under s rest)) :
    Alike (SameDraft s t) (draft (under s rest)) (draft (under t rest)) := by
  have hkept {scheme : String} (h : IsScheme scheme) :
      (decide (scheme ≠ "hysteria2") && decide (scheme ≠ "hy2")) = false := by
    rcases h with rfl | rfl <;> decide
  rw [draft, draft, hlength]
  refine Alike.step fun _ => (alike_readUrl hs ht rest).bind ?_
  intro a b hsame
  have hlink := alike_link hsame
  obtain ⟨rfl, rfl⟩ := hsame
  simp only [hkept hs, hkept ht, Bool.false_eq_true, if_false]
  refine hlink.bind fun c d hcd => .ok ?_
  have htext := hcd.sameText
  obtain ⟨-, rfl⟩ := hcd
  exact ⟨rfl, rfl, htext⟩

/-- A screen looks at the label and the parameters of a draft only. -/
theorem alike_judge {a b : Draft} (h : SameDraft s t a b) (screen : Screen) :
    Alike (SameText s t) (screen.judge title a) (screen.judge title b) := by
  rw [Screen.judge_eq, Screen.judge_eq, h.label, h.params]
  exact Alike.step fun _ => Alike.step fun _ => Alike.step fun _ => .ok h.canonical

theorem claims_under (hs : IsScheme s) (rest : List Char) :
    Protocol.hysteria2.claims (under s rest) = true := by
  have hmem : s ∈ Protocol.hysteria2.schemes := by
    rcases hs with rfl | rfl <;> decide
  exact List.any_eq_true.2 ⟨s, hmem, hasScheme_ofList s rest⟩

end Schemes

end Hysteria2

namespace Dispatcher

open Hysteria2 (under)

theorem process_under {s t : String} (hs : Hysteria2.IsScheme s) (ht : Hysteria2.IsScheme t)
    (rules : Policy.RuleSet) (words : Policy.WordList) {rest : List Char}
    (hlength : checkLength (under t rest) = checkLength (under s rest)) :
    Alike (Hysteria2.SameText s t) ((ofRules rules words).process (under s rest))
      ((ofRules rules words).process (under t rest)) := by
  rw [process_of_claims (Hysteria2.claims_under hs rest),
    process_of_claims (Hysteria2.claims_under ht rest), hlength]
  exact Alike.step fun _ => (Hysteria2.alike_draft hs ht hlength).bind fun _ _ h =>
    Hysteria2.alike_judge h _

/-- Under both schemes of Hysteria2 a text is rejected for the same reason, or accepted as links
that differ in the scheme only. -/
theorem process_under_either_scheme (rules : Policy.RuleSet) (words : Policy.WordList) {s : String}
    (hlength : ("hysteria2://" ++ s).utf8ByteSize ≤ maxLineLength) :
    (∃ r, (ofRules rules words).process ("hysteria2://" ++ s) = .error r ∧
        (ofRules rules words).process ("hy2://" ++ s) = .error r) ∨
      ∃ rest, (ofRules rules words).process ("hysteria2://" ++ s) = .ok ("hysteria2://" ++ rest) ∧
        (ofRules rules words).process ("hy2://" ++ s) = .ok ("hy2://" ++ rest) := by
  have hlong (rest : List Char) : under "hysteria2" rest = "hysteria2://" ++ String.ofList rest :=
    String.ofList_append
  have hshort (rest : List Char) : under "hy2" rest = "hy2://" ++ String.ofList rest :=
    String.ofList_append
  have hsize : ("hy2://" ++ s).utf8ByteSize ≤ ("hysteria2://" ++ s).utf8ByteSize := by
    rw [String.utf8ByteSize_append, String.utf8ByteSize_append]
    exact Nat.add_le_add_right (by decide) _
  have hcheck : checkLength ("hy2://" ++ s) = checkLength ("hysteria2://" ++ s) := by
    rw [checkLength_eq_ok.2 hlength, checkLength_eq_ok.2 (Nat.le_trans hsize hlength)]
  have halike := @process_under "hysteria2" "hy2" (.inl rfl) (.inr rfl) rules words s.toList
  rw [hlong, hshort, String.ofList_toList] at halike
  generalize (ofRules rules words).process ("hysteria2://" ++ s) = x at halike ⊢
  generalize (ofRules rules words).process ("hy2://" ++ s) = y at halike ⊢
  cases halike hcheck with
  | error r => exact .inl ⟨r, rfl, rfl⟩
  | ok h =>
      obtain ⟨rest, rfl, rfl⟩ := h
      exact .inr ⟨String.ofList rest, congrArg _ (hlong rest), congrArg _ (hshort rest)⟩

/-- A text that is accepted, with an escaped name and a repeated parameter, and one that is not a
URL since its port is too great. -/
theorem process_under_either_scheme_escaped :
    (∃ rest, (ofRules .empty .empty).process
          ("hysteria2://" ++ "ü:p@a.b:1/x?obfs-password=%20&obfs=salamander&obfs=#n m ") =
        .ok ("hysteria2://" ++ rest) ∧
      (ofRules .empty .empty).process
          ("hy2://" ++ "ü:p@a.b:1/x?obfs-password=%20&obfs=salamander&obfs=#n m ") =
        .ok ("hy2://" ++ rest)) ∧
    ∃ r, (ofRules .empty .empty).process ("hysteria2://" ++ "u@a.b:65536") = .error r ∧
      (ofRules .empty .empty).process ("hy2://" ++ "u@a.b:65536") = .error r := by
  have haccepted := process_under_either_scheme .empty .empty
    (s := "ü:p@a.b:1/x?obfs-password=%20&obfs=salamander&obfs=#n m ") (by decide)
  have hrejected := process_under_either_scheme .empty .empty (s := "u@a.b:65536") (by decide)
  constructor
  · rcases haccepted with ⟨r, hr, -⟩ | h
    · cases hr
    · exact h
  · rcases hrejected with h | ⟨rest, hr, -⟩
    · exact h
    · cases hr

end Dispatcher

end LinkSieve.Link
