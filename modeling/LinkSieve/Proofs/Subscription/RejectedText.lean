import LinkSieve.Proofs.Link.Rejection
import LinkSieve.Proofs.Subscription.Report
import Mathlib.Data.List.Basic

/-!
# The text of the rejected lines

The text of the rejected lines has two lines for each of them, a comment with the reason and the
line itself. Neither can break its line, so nothing that stands in a subscription or in a list of
banned words adds an entry to the text or changes one.
-/

namespace LinkSieve.Subscription

open Text (IsOneLine)

/-- The two lines by which a rejected line is reported. -/
def RejectedLine.lines (entry : RejectedLine) : List (List Char) :=
  [("# REASON: " ++ entry.reason).toList, entry.line.toList]

namespace Report

variable {report : Report} {dedup : Bool} {body : List UInt8}

theorem isOneLine_of_mem_candidates {line : String} (h : line ∈ candidates body) :
    IsOneLine line := by
  obtain ⟨chars, hchars, rfl⟩ := List.mem_map.1 h
  exact Text.isOneLine_ofList (mem_of_mem_lines hchars).1

/-- One entry takes the two lines meant for it, if reason and line are on one line each. -/
theorem splitOn_entry {entry : RejectedLine} (hreason : IsOneLine entry.reason)
    (hline : IsOneLine entry.line) :
    ("# REASON: " ++ entry.reason ++ "\n" ++ entry.line).toList.splitOn '\n' = entry.lines := by
  have hstart : IsOneLine ("# REASON: " ++ entry.reason) :=
    Text.isOneLine_append.2 ⟨Text.isOneLine_ofList (by decide), hreason⟩
  rw [String.toList_append, String.toList_append, toList_lineFeed, List.append_assoc,
    List.singleton_append, Text.splitOn_append_cons, Text.splitOn_of_not_mem hstart,
    Text.splitOn_of_not_mem hline]
  rfl

theorem splitOn_rejectedText_of_isOneLine (hne : report.rejected ≠ [])
    (h : ∀ entry ∈ report.rejected, IsOneLine entry.reason ∧ IsOneLine entry.line) :
    report.rejectedText.toList.splitOn '\n' = report.rejected.flatMap RejectedLine.lines := by
  rw [rejectedText, toList_joined, Text.splitOn_intercalate (by simpa using hne), List.map_map,
    List.flatMap_map]
  exact List.flatMap_congr fun entry hentry => splitOn_entry (h entry hentry).1 (h entry hentry).2

/-- Whatever a body and the banned words hold, the text of the rejected lines has two lines for
each of them, first its reason as a comment and then itself, and every reason says something and
is on one line. Only the names and conditions of the rules have to be on one line themselves. -/
theorem splitOn_rejectedText {rules : Policy.RuleSet} (words : Policy.WordList)
    (hrules : rules.IsPlain)
    (hreport : ofBody (Link.Dispatcher.ofRules rules words).process dedup body = report)
    (hne : report.rejected ≠ []) :
    report.rejectedText.toList.splitOn '\n' = report.rejected.flatMap RejectedLine.lines ∧
      (report.rejectedText.toList.splitOn '\n').length = 2 * report.rejected.length ∧
      ∀ entry ∈ report.rejected, entry.reason ≠ "" ∧ IsOneLine entry.reason := by
  have hentry : ∀ entry ∈ report.rejected,
      entry.reason ≠ "" ∧ IsOneLine entry.reason ∧ IsOneLine entry.line := by
    rw [← hreport]
    intro entry hmem
    obtain ⟨line, hline, r, hr, rfl⟩ := exists_of_mem_rejected hmem
    have harises : r.Arises rules := by
      have hprocess := Link.Dispatcher.meets_process rules words line
      rwa [hr] at hprocess
    exact ⟨r.reason_ne_empty, harises.isOneLine_reason hrules, isOneLine_of_mem_candidates hline⟩
  have hlines := splitOn_rejectedText_of_isOneLine hne fun entry hmem => (hentry entry hmem).2
  refine ⟨hlines, ?_, fun entry hmem => ⟨(hentry entry hmem).1, (hentry entry hmem).2.1⟩⟩
  have hlength : ∀ entry ∈ report.rejected, entry.lines.length = 2 := fun _ _ => rfl
  rw [hlines, List.length_flatMap, List.map_congr_left hlength, List.map_const',
    List.sum_replicate_nat, Nat.mul_comm]

/-- A link with an escaped line feed in the value that it is rejected for. -/
theorem splitOn_rejectedText_escaped :
    ∃ entry : RejectedLine,
      ofBody
          (Link.Dispatcher.ofRules
            (.ofList [("trojan", { allowed := .ofList [("security", ["tls"])] })]) .empty).process
          true (Text.Utf8.encode "trojan://p@a.b:1?security=x%0Ay".toList) =
        ⟨[], [entry]⟩ ∧
      entry.reason =
        "Trojan: invalid value for security: \"x\\ny\" (allowed: [\"tls\"])" ∧
      (Report.mk [] [entry]).rejectedText.toList.splitOn '\n' = entry.lines := by
  have hrules : Policy.RuleSet.IsPlain
      (.ofList [("trojan", { allowed := .ofList [("security", ["tls"])] })]) :=
    List.forall_mem_singleton.2 ⟨by decide, by decide, by decide, fun _ h => nomatch h⟩
  have hreport : ofBody
      (Link.Dispatcher.ofRules
        (.ofList [("trojan", { allowed := .ofList [("security", ["tls"])] })]) .empty).process
      true (Text.Utf8.encode "trojan://p@a.b:1?security=x%0Ay".toList) =
        ⟨[], [⟨"Trojan: invalid value for security: \"x\\ny\" (allowed: [\"tls\"])",
          "trojan://p@a.b:1?security=x%0Ay"⟩]⟩ := rfl
  exact ⟨_, hreport, rfl, (splitOn_rejectedText .empty hrules hreport (List.cons_ne_nil _ _)).1⟩

end Report

end LinkSieve.Subscription
