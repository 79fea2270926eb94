import LinkSieve.Proofs.Link.Dedup
import LinkSieve.Proofs.Link.Dispatcher
import LinkSieve.Proofs.Text.Split
import LinkSieve.Proofs.Text.Utf8
import LinkSieve.Subscription.Report

/-!
# Reports line by line

Every line that can be a link has one entry in the report, its canonical form or itself with a
reason, and the entries stand in the order of the lines. This is so whoever judges the lines. Two
plain bodies that are joined at a line feed therefore have the joined report, whatever bytes they
are: the line feed parts their texts even where one of them breaks off within a character.
-/

namespace LinkSieve.Subscription

open Link (Refusal)

theorem toList_lineFeed : "\n".toList = ['\n'] := by
  decide

/-- A text put together from lines. -/
theorem toList_joined (ls : List String) :
    (String.intercalate "\n" ls).toList = List.intercalate ['\n'] (ls.map String.toList) := by
  rw [String.toList_intercalate, toList_lineFeed]

theorem mem_of_mem_dropReturn {line : List Char} {c : Char} (h : c ∈ dropReturn line) :
    c ∈ line := by
  rw [dropReturn] at h
  split at h
  · exact (List.dropLast_prefix line).subset h
  · exact h

/-- A line of a text is a part of it without a line feed. -/
theorem mem_of_mem_lines {line list : List Char} (h : line ∈ lines list) :
    '\n' ∉ line ∧ ∀ c ∈ line, c ∈ list := by
  obtain ⟨piece, hpiece, rfl⟩ := List.mem_map.1 (List.mem_filter.1 h).1
  obtain ⟨hfeed, hmem⟩ := Text.mem_splitOn hpiece
  exact ⟨fun hc => hfeed (mem_of_mem_dropReturn hc), fun c hc => hmem c (mem_of_mem_dropReturn hc)⟩

theorem lines_append_cons (front back : List Char) :
    lines (front ++ '\n' :: back) = lines front ++ lines back := by
  rw [lines, Text.splitOn_append_cons, List.map_append, List.filter_append]
  rfl

section Plain

variable {body before after : List UInt8}

theorem hasMarker_append_right (h : hasMarker before = true) (after : List UInt8) :
    hasMarker (before ++ after) = true := by
  obtain ⟨marker, hmarker, hoccurs⟩ := List.any_eq_true.1 h
  refine List.any_eq_true.2 ⟨marker, hmarker, Text.occursIn_iff.2 ?_⟩
  exact (Text.occursIn_iff.1 hoccurs).trans (List.prefix_append before after).isInfix

/-- A body in which links show is read as it is. -/
theorem text_of_hasMarker (h : hasMarker body = true) : text body = Text.Utf8.decodeLossy body := by
  rw [text, Form.ofBody, if_pos h]

/-- The lines of two plain bodies joined at a line feed are the lines of the one and then those
of the other. -/
theorem candidates_append_cons (hbefore : hasMarker before = true)
    (hafter : hasMarker after = true) :
    candidates (before ++ 0x0A :: after) = candidates before ++ candidates after := by
  have hjoined := text_of_hasMarker (hasMarker_append_right hbefore (0x0A :: after))
  have hfeed : before ++ 0x0A :: after = before ++ (String.utf8EncodeChar '\n' ++ after) := rfl
  rw [candidates, hjoined, hfeed, Text.Utf8.decodeLossy_append_char, lines_append_cons,
    List.map_append, candidates, text_of_hasMarker hbefore, candidates, text_of_hasMarker hafter]

end Plain

namespace Report

/-- Two reports, one after the other. -/
instance : Append Report :=
  ⟨fun a b => ⟨a.accepted ++ b.accepted, a.rejected ++ b.rejected⟩⟩

theorem append_def (a b : Report) :
    a ++ b = ⟨a.accepted ++ b.accepted, a.rejected ++ b.rejected⟩ := rfl

variable {ε : Type} [Refusal ε] (judge : String → Except ε String)

/-- The canonical form of a line that is accepted. -/
def accepted? (line : String) : Option String :=
  (judge line).toOption

/-- The entry of a line that is rejected. -/
def rejected? (line : String) : Option RejectedLine :=
  match judge line with
  | .ok _ => none
  | .error e => some ⟨Refusal.reason e, line⟩

section Outcome

variable {judge} {line link : String} {entry : RejectedLine}

omit [Refusal ε] in
theorem accepted?_eq_some_iff : accepted? judge line = some link ↔ judge line = .ok link := by
  rw [accepted?]
  cases judge line with
  | ok found =>
      rw [Except.toOption, Option.some_inj]
      exact ⟨congrArg Except.ok, Except.ok.inj⟩
  | error e =>
      constructor
      · intro h
        cases h
      · intro h
        cases h

theorem rejected?_eq_some_iff : rejected? judge line = some entry ↔
    ∃ e, judge line = .error e ∧ entry = ⟨Refusal.reason e, line⟩ := by
  rw [rejected?]
  cases judge line with
  | ok found =>
      constructor
      · intro h
        cases h
      · rintro ⟨e, h, -⟩
        cases h
  | error e =>
      constructor
      · intro h
        exact ⟨e, rfl, (Option.some.inj h).symm⟩
      · rintro ⟨_, h, rfl⟩
        rw [Except.error.inj h]

end Outcome

/-- What a report on lines has to be: it has the entry of each line at its place and no other. -/
structure Accounts (lines : List String) (report : Report) : Prop where
  accepted : report.accepted = lines.filterMap (accepted? judge)
  rejected : report.rejected = lines.filterMap (rejected? judge)
  length : report.accepted.length + report.rejected.length = lines.length

/-- A line with its outcome before other lines adds one entry to one of the lists. -/
theorem Accounts.cons {lines : List String} {report : Report} (h : Accounts judge lines report)
    (line : String) : Accounts judge (line :: lines) (report.cons line (judge line)) := by
  cases hline : judge line with
  | ok link =>
      have haccepted : accepted? judge line = some link := accepted?_eq_some_iff.2 hline
      have hrejected : rejected? judge line = none := by rw [rejected?, hline]
      refine ⟨?_, ?_, ?_⟩
      · rw [List.filterMap_cons_some haccepted, ← h.accepted]
        rfl
      · rw [List.filterMap_cons_none hrejected, ← h.rejected]
        rfl
      · rw [List.length_cons, ← h.length]
        exact Nat.add_right_comm _ 1 _
  | error e =>
      have haccepted : accepted? judge line = none := by rw [accepted?, hline]; rfl
      have hrejected : rejected? judge line = some ⟨Refusal.reason e, line⟩ :=
        rejected?_eq_some_iff.2 ⟨e, hline, rfl⟩
      refine ⟨?_, ?_, ?_⟩
      · rw [List.filterMap_cons_none haccepted, ← h.accepted]
        rfl
      · rw [List.filterMap_cons_some hrejected, ← h.rejected]
        rfl
      · rw [List.length_cons, ← h.length]
        rfl

theorem accounts_ofLines (lines : List String) : Accounts judge lines (ofLines judge lines) := by
  induction lines with
  | nil => exact ⟨rfl, rfl, rfl⟩
  | cons line lines ih => exact ih.cons judge line

theorem ofLines_append (front back : List String) :
    ofLines judge (front ++ back) = ofLines judge front ++ ofLines judge back := by
  have hfront := accounts_ofLines judge front
  have hback := accounts_ofLines judge back
  have hboth := accounts_ofLines judge (front ++ back)
  rw [append_def, hfront.accepted, hfront.rejected, hback.accepted, hback.rejected,
    ← List.filterMap_append, ← List.filterMap_append, ← hboth.accepted, ← hboth.rejected]

variable {judge} {dedup : Bool} {body before after : List UInt8}

/-- Dropping duplicates leaves the rejected lines alone. -/
theorem rejected_ofBody :
    (ofBody judge dedup body).rejected = (candidates body).filterMap (rejected? judge) := by
  rw [← (accounts_ofLines judge (candidates body)).rejected]
  cases dedup <;> rfl

/-- An accepted link is what becomes of a line of the body. -/
theorem exists_of_mem_accepted {link : String} (h : link ∈ (ofBody judge dedup body).accepted) :
    ∃ line ∈ candidates body, judge line = .ok link := by
  have hmem : link ∈ (ofLines judge (candidates body)).accepted := by
    rw [ofBody] at h
    cases dedup with
    | false => exact h
    | true => exact Link.mem_of_mem_dedup h
  rw [(accounts_ofLines judge (candidates body)).accepted] at hmem
  obtain ⟨line, hline, hlink⟩ := List.mem_filterMap.1 hmem
  exact ⟨line, hline, accepted?_eq_some_iff.1 hlink⟩

/-- A rejected line is a line of the body, with the reason to reject it. -/
theorem exists_of_mem_rejected {entry : RejectedLine}
    (h : entry ∈ (ofBody judge dedup body).rejected) :
    ∃ line ∈ candidates body, ∃ e, judge line = .error e ∧ entry = ⟨Refusal.reason e, line⟩ := by
  rw [rejected_ofBody] at h
  obtain ⟨line, hline, hentry⟩ := List.mem_filterMap.1 h
  exact ⟨line, hline, rejected?_eq_some_iff.1 hentry⟩

/-- Whoever judges the lines, they are judged independently and none is lost: joining two plain
bodies at a line feed joins their reports, and in every report each line that can be a link has its
one entry. -/
theorem ofBody_append_cons (hbefore : hasMarker before = true) (hafter : hasMarker after = true) :
    ofBody judge false (before ++ 0x0A :: after) =
        ofBody judge false before ++ ofBody judge false after ∧
      ∀ body, Accounts judge (candidates body) (ofBody judge false body) := by
  constructor
  · calc
      ofBody judge false (before ++ 0x0A :: after) =
          ofLines judge (candidates (before ++ 0x0A :: after)) := rfl
      _ = ofLines judge (candidates before ++ candidates after) := by
        rw [candidates_append_cons hbefore hafter]
      _ = ofLines judge (candidates before) ++ ofLines judge (candidates after) :=
        ofLines_append judge _ _
  · exact fun body => accounts_ofLines judge (candidates body)

/-- A character of three bytes that is broken off at the end of a line and goes on in the next,
under a panel that has a reader of its own, with a reason of its own, before a canonicalizer. -/
theorem ofBody_append_cons_broken :
    let before := Text.Utf8.encode "echo://x\nss://".toList ++ [0xE2, 0x82]
    let after := 0xAC :: Text.Utf8.encode "\necho://\nss://".toList
    let echo : Link.Reader Link.Objection :=
      ⟨(Link.hasScheme · "echo"),
        fun line => if line = "echo://" then .error ⟨.missingField, "no echo"⟩ else .ok line⟩
    let panel := (Link.Panel.empty.register echo).register
      (Link.Canonicalizer.mk .shadowsocks .pass).reader
    hasMarker before = true ∧ hasMarker after = true ∧
      ofBody panel.process false (before ++ 0x0A :: after) =
        ⟨["echo://x"],
          [⟨Link.Rejection.reason .badLegacyBase64, "ss://\uFFFD"⟩,
            ⟨Link.Rejection.reason .unsupported, "\uFFFD"⟩, ⟨"no echo", "echo://"⟩,
            ⟨Link.Rejection.reason .badLegacyPayload, "ss://"⟩]⟩ := by
  intro before after echo panel
  have hbefore : hasMarker before = true := by decide
  have hafter : hasMarker after = true := by decide
  exact ⟨hbefore, hafter, (ofBody_append_cons hbefore hafter).1.trans rfl⟩

end Report

end LinkSieve.Subscription
