import LinkSieve.Link.Dispatcher
import LinkSieve.Proofs.Link.ShareLink

/-!
# Which canonicalizer reads a line

No line starts with schemes of two protocols, so the order in which canonicalizers are tried is of
no consequence: a line that a protocol claims is read by that protocol and screened by its rule.
-/

namespace LinkSieve.Link

theorem afterScheme?_eq_some {scheme line rest : List Char}
    (h : afterScheme? scheme line = some rest) :
    (line.take scheme.length).map Text.lowerAscii = scheme.map Text.lowerAscii ∧
      line.drop scheme.length = "://".toList ++ rest := by
  rw [afterScheme?] at h
  split at h
  · rename_i hstart
    exact ⟨hstart, Text.dropPrefix?_eq_some h⟩
  · cases h

/-- A scheme is found whichever case its letters are in. -/
theorem afterScheme?_spelled {scheme start : List Char}
    (hstart : start.map Text.lowerAscii = scheme.map Text.lowerAscii) (rest : List Char) :
    afterScheme? scheme (start ++ ("://".toList ++ rest)) = some rest := by
  have hlength : scheme.length = start.length := by
    rw [← List.length_map (f := Text.lowerAscii), ← hstart, List.length_map]
  rw [afterScheme?, hlength, List.take_left, List.drop_left, if_pos hstart, Text.dropPrefix?_append]

theorem afterScheme?_append (scheme rest : List Char) :
    afterScheme? scheme (scheme ++ ("://".toList ++ rest)) = some rest :=
  afterScheme?_spelled rfl rest

theorem afterScheme?_ofList (scheme rest : List Char) :
    afterScheme? scheme (String.ofList (scheme ++ "://".toList ++ rest)).toList = some rest := by
  rw [String.toList_ofList, List.append_assoc, afterScheme?_append]

/-- What follows the scheme of a canonical text starts with the credentials and an at sign. -/
theorem ShareLink.afterScheme?_text (link : ShareLink) :
    afterScheme? link.scheme.toList link.text.toList =
      some (link.userinfo.toList ++ '@' :: (link.server.text ++ link.tail)) := by
  have hrest := afterScheme?_append link.scheme.toList
    (link.userinfo.toList ++ '@' :: (link.server.text ++ link.tail))
  rw [text, chars_eq, String.toList_ofList]
  simpa only [List.append_assoc, List.cons_append] using hrest

theorem hasScheme_iff {line scheme : String} :
    hasScheme line scheme = true ↔
      ∃ rest, afterScheme? scheme.toList line.toList = some rest := by
  rw [hasScheme, stripScheme?, Option.isSome_map, Option.isSome_iff_exists]

theorem hasScheme_ofList (scheme : String) (rest : List Char) :
    hasScheme (String.ofList (scheme.toList ++ "://".toList ++ rest)) scheme = true :=
  hasScheme_iff.2 ⟨rest, afterScheme?_ofList scheme.toList rest⟩

/-- A line that has a scheme starts with its letters, in either case, a colon and two slashes. -/
theorem exists_start_of_hasScheme {line scheme : String} (hscheme : Url.IsOpaqueScheme scheme)
    (h : hasScheme line scheme = true) :
    ∃ start rest, start.map Text.lowerAscii = scheme.toList ∧
      line.toList = start ++ "://".toList ++ rest := by
  obtain ⟨rest, hrest⟩ := hasScheme_iff.1 h
  obtain ⟨hstart, hdrop⟩ := afterScheme?_eq_some hrest
  refine ⟨_, rest, hstart.trans hscheme.map_lowerAscii, ?_⟩
  rw [List.append_assoc, ← hdrop, List.take_append_drop]

/-- The scheme that a line starts with is what stands before its first colon, in lower case. -/
theorem takeWhile_of_hasScheme {line scheme : String} (hscheme : Url.IsOpaqueScheme scheme)
    (h : hasScheme line scheme = true) :
    (line.toList.map Text.lowerAscii).takeWhile (· ≠ ':') = scheme.toList := by
  obtain ⟨start, rest, hstart, hline⟩ := exists_start_of_hasScheme hscheme h
  rw [hline, List.append_assoc, List.map_append, hstart]
  apply Text.takeWhile_append_eq
  · intro c hc
    have hchar := (hscheme.chars c hc).1
    rw [decide_eq_true_iff]
    rintro rfl
    exact absurd hchar (by decide)
  · intro c hc
    obtain rfl := Option.some.inj hc
    decide

/-- A line that has a scheme is read as a URL under that scheme, if it is a URL. -/
theorem scheme_of_hasScheme {line scheme : String} {url : Url}
    (hscheme : Url.IsOpaqueScheme scheme) (h : hasScheme line scheme = true)
    (hread : Url.read line = .ok url) : url.scheme = scheme := by
  obtain ⟨start, rest, hstart, hline⟩ := exists_start_of_hasScheme hscheme h
  rw [← String.ofList_toList (s := line), hline, Url.read_spelled hscheme hstart] at hread
  rw [Url.scheme_of_readServed hread, String.ofList_toList]

namespace Protocol

variable {p q : Protocol} {line : String}

theorem isOpaqueScheme {s : String} (h : s ∈ p.schemes) : Url.IsOpaqueScheme s := by
  have hall : ∀ t ∈ ["vless", "vmess", "trojan", "ss", "hysteria2", "hy2"],
      Url.IsOpaqueScheme t := by
    simp only [List.forall_mem_cons]
    refine ⟨?_, ?_, ?_, ?_, ?_, ?_, fun _ h => nomatch h⟩
    all_goals exact ⟨⟨_, rfl, rfl⟩, Text.forall_of_all (by decide), rfl⟩
  apply hall
  cases p <;> revert h <;> revert s <;> decide

theorem eq_of_mem_schemes {s : String} (hp : s ∈ p.schemes) (hq : s ∈ q.schemes) : p = q := by
  revert s
  cases p <;> cases q <;> decide

/-- At most one protocol claims a line. -/
theorem eq_of_claims (hp : p.claims line = true) (hq : q.claims line = true) : p = q := by
  obtain ⟨s, hs, hps⟩ := List.any_eq_true.1 hp
  obtain ⟨t, ht, hqt⟩ := List.any_eq_true.1 hq
  have hst : s = t := by
    apply String.toList_inj.1
    rw [← takeWhile_of_hasScheme (isOpaqueScheme hs) hps,
      ← takeWhile_of_hasScheme (isOpaqueScheme ht) hqt]
  exact eq_of_mem_schemes hs (hst ▸ ht)

end Protocol

namespace Screen

variable {screen : Screen} {title text : String} {draft : Draft}

/-- A draft passes if its label and its parameters do, and is then accepted as it stands. -/
theorem judge_eq_ok : screen.judge title draft = .ok text ↔
    screen.checkLabel draft.label = .ok () ∧
      (∃ params, draft.params = .ok params ∧ screen.enforce title params = .ok ()) ∧
      draft.canonical = text := by
  rw [judge, Outcome.bind_eq_ok]
  constructor
  · rintro ⟨⟨⟩, hlabel, h⟩
    obtain ⟨params, hparams, h⟩ := Outcome.bind_eq_ok.1 h
    obtain ⟨⟨⟩, hrule, h⟩ := Outcome.bind_eq_ok.1 h
    exact ⟨hlabel, ⟨params, hparams, hrule⟩, (Outcome.pure_eq_ok.1 h).symm⟩
  · rintro ⟨hlabel, ⟨params, hparams, hrule⟩, htext⟩
    refine ⟨(), hlabel, Outcome.bind_eq_ok.2 ⟨params, hparams, ?_⟩⟩
    exact Outcome.bind_eq_ok.2 ⟨(), hrule, Outcome.pure_eq_ok.2 htext.symm⟩

end Screen

namespace Dispatcher

variable {rules : Policy.RuleSet} {words : Policy.WordList} {p : Protocol} {line text : String}

theorem find?_claims (h : p.claims line = true) :
    Protocol.all.find? (·.claims line) = some p := by
  have hmem : p ∈ Protocol.all := by
    cases p <;> decide
  cases hfind : Protocol.all.find? (·.claims line) with
  | none =>
      have hnone := List.find?_eq_none.1 hfind p hmem
      exact absurd h hnone
  | some q =>
      have hq : q.claims line = true :=
        List.find?_some (p := fun r : Protocol => r.claims line) hfind
      rw [Protocol.eq_of_claims hq h]

theorem find?_canonicalizers (h : p.claims line = true) :
    (ofRules rules words).canonicalizers.find? (·.protocol.claims line) =
      some ⟨p, Screen.forProtocol rules p.scheme words⟩ := by
  have hmap := find?_claims h
  rw [ofRules, List.find?_map]
  exact congrArg _ hmap

/-- The first canonicalizer that claims a line decides it, if the line is not too long. -/
theorem process_eq (d : Dispatcher) (line : String) :
    d.process line = checkLength line >>= fun _ =>
      match d.canonicalizers.find? (·.protocol.claims line) with
      | some c => c.process line
      | none => throw .unsupported := by
  have hfind : d.panel.readers.find? (·.claims line) =
      (d.canonicalizers.find? (·.protocol.claims line)).map Canonicalizer.reader :=
    List.find?_map
  rw [process, Panel.process, hfind]
  cases checkLength line with
  | error r => rfl
  | ok =>
      cases d.canonicalizers.find? (·.protocol.claims line) with
      | none => rfl
      | some c => exact Outcome.mapError_id (c.process line)

/-- A line that a protocol claims is left to the canonicalizer of the protocol. -/
theorem process_of_claims (h : p.claims line = true) :
    (ofRules rules words).process line =
      checkLength line >>= fun _ =>
        Canonicalizer.process ⟨p, Screen.forProtocol rules p.scheme words⟩ line := by
  rw [process_eq, find?_canonicalizers h]

/-- A line that a protocol claims becomes what the screen makes of its draft, if the line is not too
long. -/
theorem process_of_draft {outcome : Except Rejection Draft} (h : p.claims line = true)
    (hfits : line.utf8ByteSize ≤ maxLineLength) (hdraft : p.draft line = outcome) :
    (ofRules rules words).process line =
      outcome >>= (Screen.forProtocol rules p.scheme words).judge p.title := by
  rw [process_of_claims h, checkLength_eq_ok.2 hfits, Outcome.ok_bind, Canonicalizer.process,
    hdraft]

/-- A line that a protocol claims is accepted if its draft passes the screen of the protocol. -/
theorem process_eq_ok (h : p.claims line = true) :
    (ofRules rules words).process line = .ok text ↔
      line.utf8ByteSize ≤ maxLineLength ∧ ∃ draft, p.draft line = .ok draft ∧
        (Screen.forProtocol rules p.scheme words).judge p.title draft = .ok text := by
  rw [process_of_claims h, checkLength_bind_eq_ok, Canonicalizer.process, Outcome.bind_eq_ok]

/-- An accepted line that a protocol claims comes out as the canonical text of its draft. -/
theorem exists_draft_of_process (h : p.claims line = true)
    (hprocess : (ofRules rules words).process line = .ok text) :
    ∃ draft, p.draft line = .ok draft ∧ draft.canonical = text := by
  obtain ⟨-, draft, hdraft, hjudge⟩ := (process_eq_ok h).1 hprocess
  exact ⟨draft, hdraft, (Screen.judge_eq_ok.1 hjudge).2.2⟩

/-- A canonical text with the same draft as its line is accepted by whoever accepts the line. -/
theorem process_of_draft_eq {draft : Draft} (h : p.claims line = true)
    (hprocess : (ofRules rules words).process line = .ok text)
    (hdraft : p.draft line = .ok draft) (hagain : p.draft text = .ok draft)
    (hclaims : p.claims text = true) (hlength : text.utf8ByteSize ≤ maxLineLength) :
    (ofRules rules words).process text = .ok text := by
  obtain ⟨-, found, hfound, hjudge⟩ := (process_eq_ok h).1 hprocess
  obtain rfl : found = draft := by
    rw [hfound] at hdraft
    exact Except.ok.inj hdraft
  exact (process_eq_ok hclaims).2 ⟨hlength, found, hagain, hjudge⟩

end Dispatcher

end LinkSieve.Link
