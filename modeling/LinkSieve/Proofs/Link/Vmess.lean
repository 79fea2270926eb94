import LinkSieve.Proofs.Base64
import LinkSieve.Proofs.Json.Reading
import LinkSieve.Proofs.Link.Dispatcher

/-!
# VMess links, read back

The fields of a link are written as JSON in Base64, and both are read back. Numbers with a fraction
or an exponent are left out of account: for them it would have to be known that the shortest digits
of a double-precision number are read as that number.
-/

namespace LinkSieve.Link.Vmess

variable {payload : List Char} {fields : Fields}

theorem readFields_eq_ok : readFields payload = .ok fields ↔
    ∃ data cs raw, Base64.decodeDetected payload = .ok data ∧ Text.Utf8.decode? data = some cs ∧
      Json.read? cs = some (.object raw) ∧ fields = Json.canonicalFields raw := by
  rw [readFields]
  cases hdata : Base64.decodeDetected payload with
  | error e => simp
  | ok data =>
      simp only
      split
      · rename_i raw hread
        obtain ⟨cs, hcs, hjson⟩ := Option.bind_eq_some_iff.1 hread
        constructor
        · intro h
          exact ⟨data, cs, raw, rfl, hcs, hjson, (Except.ok.inj h).symm⟩
        · rintro ⟨data', cs', raw', hdata', hcs', hjson', rfl⟩
          obtain rfl := Except.ok.inj hdata'
          obtain rfl : cs = cs' := Option.some.inj (hcs.symm.trans hcs')
          rw [hjson] at hjson'
          cases hjson'
          rfl
      · rename_i hother
        constructor
        · intro h
          cases h
        · rintro ⟨data', cs', raw', hdata', hcs', hjson', rfl⟩
          obtain rfl := Except.ok.inj hdata'
          exact absurd (by rw [hcs', Option.bind_some, hjson']) (hother raw')

/-- The payload of the canonical text of a link. -/
def payloadOf (fields : Fields) : List Char :=
  Base64.encodeText .standard (Json.write (.object fields.entries))

/-- Fields with integers for numbers that have been read from a payload are read back from their
own payload. -/
theorem readFields_payloadOf (h : readFields payload = .ok fields)
    (hnumbers : (Json.object fields.entries).Holds Json.Number.IsInteger) :
    readFields (payloadOf fields) = .ok fields := by
  obtain ⟨data, cs, raw, -, -, hread, rfl⟩ := readFields_eq_ok.1 h
  have hraw := Json.isReadable_of_read? hread
  have hrange : (Json.object (Json.canonicalFields raw).entries).Holds Json.Number.InRange :=
    hraw.numbers.canonical
  have hnests : (Json.object (Json.canonicalFields raw).entries).Nests Json.Machine.depth :=
    hraw.nests.canonical
  generalize hfields : Json.canonicalFields raw = fields at hnumbers hrange hnests
  have hwritten :
      Json.read? (Json.write (.object fields.entries)) = some (.object fields.entries) :=
    Json.read?_write (hnumbers.and hrange) hnests
  have hcanonical : Json.canonicalFields fields.entries = fields := by
    rw [← hfields, Json.canonicalFields_canonicalFields]
  apply readFields_eq_ok.2
  refine ⟨Text.Utf8.encode (Json.write (.object fields.entries)),
    Json.write (.object fields.entries), fields.entries, ?_, ?_, hwritten, hcanonical.symm⟩
  · rw [payloadOf, Base64.encodeText, Base64.decodeDetected_encode]
  · exact Text.Utf8.decode?_encode _

/-- The draft of a link with given fields. -/
def draftOf (fields : Fields) : Except Rejection Draft := do
  let host := textField fields "add"
  if host.isEmpty || (textField fields "id").isEmpty then throw .missingServerOrUuid
  let _ ← readPort (fields.get? "port")
  if !Address.isHost host.toList then throw .badServerHost
  return {
    label := textField fields "ps"
    params := .ok (policyParams fields)
    canonical := text fields }

theorem canonical_of_draftOf {draft : Draft} (h : draftOf fields = .ok draft) :
    draft.canonical = text fields := by
  rw [draftOf] at h
  obtain ⟨-, h⟩ := Outcome.check_eq_ok.1 h
  obtain ⟨port, -, h⟩ := Outcome.bind_eq_ok.1 h
  obtain ⟨-, h⟩ := Outcome.check_eq_ok.1 h
  rw [Outcome.pure_eq_ok.1 h]

/-- A line has a draft if its payload is that of fields with that draft. -/
theorem draft_eq_ok {line : String} {draft : Draft} : Vmess.draft line = .ok draft ↔
    line.utf8ByteSize ≤ maxLineLength ∧ ∃ payload fields,
      afterScheme? "vmess".toList line.toList = some payload ∧ payload.isEmpty = false ∧
        readFields payload = .ok fields ∧ draftOf fields = .ok draft := by
  rw [Vmess.draft, checkLength_bind_eq_ok]
  apply and_congr_right
  intro _
  cases afterScheme? "vmess".toList line.toList with
  | none =>
      constructor
      · intro h
        cases h
      · rintro ⟨payload, fields, h, -⟩
        cases h
  | some payload =>
      constructor
      · intro h
        obtain ⟨hempty, h⟩ := Outcome.check_eq_ok.1 h
        obtain ⟨fields, hfields, h⟩ := Outcome.bind_eq_ok.1 h
        exact ⟨payload, fields, rfl, Bool.not_eq_true _ ▸ hempty, hfields, h⟩
      · rintro ⟨payload', fields, hpayload, hempty, hfields, h⟩
        cases hpayload
        apply Outcome.check_eq_ok.2
        refine ⟨Bool.not_eq_true _ ▸ hempty, ?_⟩
        exact Outcome.bind_eq_ok.2 ⟨fields, hfields, h⟩

theorem toList_text (fields : Fields) :
    (text fields).toList = "vmess".toList ++ ("://".toList ++ payloadOf fields) := by
  have hchars : (text fields).toList = "vmess://".toList ++ payloadOf fields :=
    String.toList_ofList
  have hstart : "vmess://".toList = "vmess".toList ++ "://".toList := by decide
  rw [hchars, hstart, List.append_assoc]

theorem afterScheme?_text (fields : Fields) :
    afterScheme? "vmess".toList (text fields).toList = some (payloadOf fields) := by
  rw [toList_text, afterScheme?_append]

theorem isEmpty_payloadOf (fields : Fields) : (payloadOf fields).isEmpty = false := by
  have hwritten : Json.write (.object fields.entries) ≠ [] := by
    rw [Json.write]
    exact List.cons_ne_nil _ _
  rw [List.isEmpty_eq_false_iff]
  exact Base64.encodeText_ne_nil .standard hwritten

end LinkSieve.Link.Vmess

namespace LinkSieve.Link.Dispatcher

variable {line text : String}

/-- The payload of an accepted link decodes to fields. If their numbers are integers, the payload
of the canonical text decodes to the same fields, and unless the canonical text is too long to be a
line, it is accepted and is its own canonical text. -/
theorem fields_of_process (rules : Policy.RuleSet) (words : Policy.WordList)
    (hclaims : Protocol.vmess.claims line = true)
    (hprocess : (ofRules rules words).process line = .ok text) :
    ∃ payload fields, afterScheme? Protocol.vmess.scheme.toList line.toList = some payload ∧
      Vmess.readFields payload = .ok fields ∧
      ((Json.object fields.entries).Holds Json.Number.IsInteger →
        ∃ canonical, afterScheme? Protocol.vmess.scheme.toList text.toList = some canonical ∧
          Vmess.readFields canonical = .ok fields ∧
          (text.utf8ByteSize ≤ maxLineLength →
            (ofRules rules words).process text = .ok text)) := by
  obtain ⟨draft, hdraft, htext⟩ := exists_draft_of_process hclaims hprocess
  obtain ⟨-, payload, fields, hpayload, -, hfields, hdraftOf⟩ := Vmess.draft_eq_ok.1 hdraft
  obtain rfl : text = Vmess.text fields := by
    rw [← htext, Vmess.canonical_of_draftOf hdraftOf]
  have hcanonical := Vmess.afterScheme?_text fields
  refine ⟨payload, fields, hpayload, hfields, ?_⟩
  intro hnumbers
  have hagain := Vmess.readFields_payloadOf hfields hnumbers
  refine ⟨Vmess.payloadOf fields, hcanonical, hagain, ?_⟩
  intro hlength
  have hclaimed : Protocol.vmess.claims (Vmess.text fields) = true :=
    List.any_eq_true.2 ⟨"vmess", List.mem_cons_self, hasScheme_iff.2 ⟨_, hcanonical⟩⟩
  have hsame : Vmess.draft (Vmess.text fields) = .ok draft := by
    apply Vmess.draft_eq_ok.2
    exact ⟨hlength, Vmess.payloadOf fields, fields, hcanonical, Vmess.isEmpty_payloadOf fields,
      hagain, hdraftOf⟩
  exact process_of_draft_eq hclaims hprocess hdraft hsame hclaimed hlength

/-- The fields of `{"port":1,"id":"u","add":"a.b"}`. -/
def threeFields : Vmess.Fields :=
  Json.canonicalFields [("port", .number (.int 1)), ("id", .text "u"), ("add", .text "a.b")]

/-- The payload is decoded and read in steps: what is evaluated in one go is evaluated again
wherever a later step looks at it. -/
theorem readFields_threeFields :
    Vmess.readFields "eyJwb3J0IjoxLCJpZCI6InUiLCJhZGQiOiJhLmIifQ".toList = .ok threeFields := by
  have hdata : Base64.decodeDetected "eyJwb3J0IjoxLCJpZCI6InUiLCJhZGQiOiJhLmIifQ".toList =
      .ok (Text.Utf8.encode "\x7b\"port\":1,\"id\":\"u\",\"add\":\"a.b\"\x7d".toList) := rfl
  have hread : Json.read? "\x7b\"port\":1,\"id\":\"u\",\"add\":\"a.b\"\x7d".toList = some (.object
      [("port", .number (.int 1)), ("id", .text "u"), ("add", .text "a.b")]) := rfl
  exact Vmess.readFields_eq_ok.2 ⟨_, _, _, hdata, Text.Utf8.decode?_encode _, hread, rfl⟩

theorem text_threeFields :
    Vmess.text threeFields = "vmess://eyJhZGQiOiJhLmIiLCJpZCI6InUiLCJwb3J0IjoxfQ==" := by
  have hwritten : Json.write (.object threeFields.entries) =
      "\x7b\"add\":\"a.b\",\"id\":\"u\",\"port\":1\x7d".toList := rfl
  have hencoded : Base64.encodeText .standard
      "\x7b\"add\":\"a.b\",\"id\":\"u\",\"port\":1\x7d".toList =
        "eyJhZGQiOiJhLmIiLCJpZCI6InUiLCJwb3J0IjoxfQ==".toList := rfl
  have hpayload : Vmess.payloadOf threeFields =
      "eyJhZGQiOiJhLmIiLCJpZCI6InUiLCJwb3J0IjoxfQ==".toList :=
    (congrArg (Base64.encodeText .standard) hwritten).trans hencoded
  have hjoined : "vmess".toList ++ ("://".toList ++
      "eyJhZGQiOiJhLmIiLCJpZCI6InUiLCJwb3J0IjoxfQ==".toList) =
        "vmess://eyJhZGQiOiJhLmIiLCJpZCI6InUiLCJwb3J0IjoxfQ==".toList := rfl
  apply String.toList_inj.1
  rw [Vmess.toList_text, hpayload, hjoined]

theorem fields_of_process_three :
    ∃ payload fields,
      afterScheme? Protocol.vmess.scheme.toList
        "vmess://eyJwb3J0IjoxLCJpZCI6InUiLCJhZGQiOiJhLmIifQ".toList = some payload ∧
      Vmess.readFields payload = .ok fields ∧
      ∃ canonical,
        afterScheme? Protocol.vmess.scheme.toList
          "vmess://eyJhZGQiOiJhLmIiLCJpZCI6InUiLCJwb3J0IjoxfQ==".toList = some canonical ∧
        Vmess.readFields canonical = .ok fields ∧
        (ofRules .empty .empty).process "vmess://eyJhZGQiOiJhLmIiLCJpZCI6InUiLCJwb3J0IjoxfQ==" =
          .ok "vmess://eyJhZGQiOiJhLmIiLCJpZCI6InUiLCJwb3J0IjoxfQ==" := by
  have hclaims : Protocol.vmess.claims "vmess://eyJwb3J0IjoxLCJpZCI6InUiLCJhZGQiOiJhLmIifQ" =
      true := rfl
  have hfound : afterScheme? Protocol.vmess.scheme.toList
      "vmess://eyJwb3J0IjoxLCJpZCI6InUiLCJhZGQiOiJhLmIifQ".toList =
        some "eyJwb3J0IjoxLCJpZCI6InUiLCJhZGQiOiJhLmIifQ".toList := rfl
  have hprocess : (ofRules .empty .empty).process
      "vmess://eyJwb3J0IjoxLCJpZCI6InUiLCJhZGQiOiJhLmIifQ" =
        .ok "vmess://eyJhZGQiOiJhLmIiLCJpZCI6InUiLCJwb3J0IjoxfQ==" := by
    have hdraftOf : Vmess.draftOf threeFields =
        .ok ⟨"", .ok (Vmess.policyParams threeFields), Vmess.text threeFields⟩ := rfl
    have hdraft := Vmess.draft_eq_ok.2
      ⟨by decide, _, _, hfound, rfl, readFields_threeFields, hdraftOf⟩
    rw [← text_threeFields]
    exact (process_eq_ok hclaims).2 ⟨by decide, _, hdraft, rfl⟩
  have hnumbers : (Json.object threeFields.entries).Holds Json.Number.IsInteger := by
    apply Json.Holds.canonical (v := .object _)
    constructor
    simp only [List.forall_mem_cons]
    exact ⟨.number trivial, .text _, .text _, fun _ h => nomatch h⟩
  obtain ⟨payload, fields, hpayload, hfields, hagain⟩ :=
    fields_of_process .empty .empty hclaims hprocess
  obtain rfl := Option.some.inj (hfound.symm.trans hpayload)
  obtain rfl := Except.ok.inj (readFields_threeFields.symm.trans hfields)
  obtain ⟨canonical, hcanonical, hsame, hfixed⟩ := hagain hnumbers
  exact ⟨_, _, hpayload, hfields, canonical, hcanonical, hsame, hfixed (by decide)⟩

end LinkSieve.Link.Dispatcher
