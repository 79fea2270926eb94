import LinkSieve.Proofs.Decimal.Shortest
import LinkSieve.Proofs.Link.VmessPort
import LinkSieve.Proofs.Policy.RuleFile

/-!
# Numbers in rules and in VMess payloads

A rule compares texts. The text of a number in a rule file and the text of a number in a payload are
made in two ways, and they are one text for every integer of the signed range. Beyond it a rule file
has a double-precision number, whose text has the shortest digits and zeros behind them, while a
payload keeps the integer. There a rule lets a number pass that it does not list, and objects to one
that it does.
-/

namespace LinkSieve

open Policy

namespace Link.Vmess

/-- A number of a payload is shown as the text that the same number in a rule file counts as. -/
def ComparesAlike (n : Json.Number) : Prop :=
  RuleFile.scalarText? n.scalar = some (numberText n)

variable {n : Int}

theorem comparesAlike_of_lt (h : n < 0x8000_0000_0000_0000) : ComparesAlike (.int n) :=
  if_pos h

/-- Beyond the signed range only multiples of a hundred can have one text in both places: two of at
most twenty digits are filled up with zeros. -/
theorem hundred_dvd_of_comparesAlike (hlow : 0x8000_0000_0000_0000 ≤ n)
    (hhigh : n < 0x1_0000_0000_0000_0000) (h : ComparesAlike (.int n)) : 100 ∣ n := by
  obtain ⟨k, rfl⟩ := Int.eq_ofNat_of_zero_le (Int.le_trans (by decide) hlow)
  have hlow : 2 ^ 63 ≤ k := Int.ofNat_le.1 hlow
  have hhigh : k < 2 ^ 64 := Int.ofNat_lt.1 hhigh
  have hne : k ≠ 0 := by
    rintro rfl
    exact absurd hlow (by decide)
  have hlog : k.log2 < 64 := (Nat.log2_lt hne).2 hhigh
  obtain ⟨m, hm, hsize⟩ := Decimal.Magnitude.exists_ofNat?_ge (Nat.le_trans (by decide) hlow)
    (Nat.lt_trans hlog (by decide))
  have hlarge : 10 ^ (16 + 2) ≤ m.num / m.den :=
    calc 10 ^ (16 + 2) ≤ 2 ^ 63 := by decide
      _ ≤ 2 ^ k.log2 := Nat.pow_le_pow_right (by decide) ((Nat.le_log2 hne).2 hlow)
      _ ≤ m.num / m.den := hsize
  have hrounded : RuleFile.scalarText? (.int k) =
      some (Decimal.Binary64.finite false m).plainText := by
    rw [RuleFile.scalarText?, if_neg (by omega), Int.toNat_natCast, hm]
    rfl
  have htext : (Decimal.Binary64.finite false m).plainText = toString k :=
    Option.some.inj (hrounded.symm.trans h)
  exact Int.ofNat_dvd.2 (Decimal.pow_ten_dvd_of_plainText hlarge htext)

/-- A rule sees a number of a payload as its text. -/
theorem get?_policyParams_number {fields : Fields} {name : String} {x : Json.Number}
    (hfield : fields.get? name = some (.number x)) :
    (policyParams fields).get? name = some (numberText x) := by
  rw [get?_policyParams, hfield]
  rfl

/-- A rule that lists a number as allowed for a name allows it there if the number has one text in
both places. -/
theorem allowsAt_of_comparesAlike {j : Json} {rule : Rule} {name : String} {items : List Json}
    {fields : Fields} {x : Json.Number} (hrule : RuleFile.rule? .json j.document = some rule)
    (hlists : j.ListsAllowed name items) (hmem : .number x ∈ items)
    (hfield : fields.get? name = some (.number x)) (h : ComparesAlike x) :
    rule.AllowsAt (policyParams fields) name := by
  obtain ⟨values, hvalues, hitems⟩ := RuleFile.exists_allowed_of_rule? hrule hlists
  intro values' value hvalues' hvalue
  obtain rfl : values = values' := Option.some.inj (hvalues.symm.trans hvalues')
  have hshown := get?_policyParams_number hfield
  obtain rfl : numberText x = value := Option.some.inj (hshown.symm.trans hvalue)
  obtain ⟨found, hfound, hread⟩ := RuleFile.exists_mem_of_forall₂ hitems hmem
  have hread : RuleFile.scalarText? x.scalar = some found := hread
  exact Option.some.inj (h.symm.trans hread) ▸ hfound

/-- A rule that lists but one number for a name allows it there only if the number has one text in
both places. -/
theorem comparesAlike_of_allowsAt {j : Json} {rule : Rule} {name : String} {fields : Fields}
    {x : Json.Number} (hrule : RuleFile.rule? .json j.document = some rule)
    (hlists : j.ListsAllowed name [.number x])
    (hfield : fields.get? name = some (.number x))
    (h : rule.AllowsAt (policyParams fields) name) : ComparesAlike x := by
  obtain ⟨values, hvalues, hitems⟩ := RuleFile.exists_allowed_of_rule? hrule hlists
  have hshown := get?_policyParams_number hfield
  have hmem : numberText x ∈ values := h values (numberText x) hvalues hshown
  cases hitems with
  | cons hread hrest =>
      cases hrest
      obtain rfl := List.mem_singleton.1 hmem
      exact hread

end Link.Vmess

/-- A rule sees of a line the parameters that its fields have. -/
theorem Link.Vmess.params_of_draft {line : String} {payload : List Char} {fields : Fields}
    {draft : Draft} {params : Params}
    (hpayload : afterScheme? "vmess".toList line.toList = some payload)
    (hfields : readFields payload = .ok fields) (hdraft : Vmess.draft line = .ok draft)
    (hparams : draft.params = .ok params) : policyParams fields = params := by
  obtain ⟨-, payload', fields', hpayload', -, hfields', hdraftOf⟩ := draft_eq_ok.1 hdraft
  obtain rfl := Option.some.inj (hpayload.symm.trans hpayload')
  obtain rfl := Except.ok.inj (hfields.symm.trans hfields')
  obtain ⟨-, hshown⟩ := exists_port_of_draftOf hdraftOf
  exact Except.ok.inj (hshown.symm.trans hparams)

namespace Link.Dispatcher

variable {rules : RuleSet} {rule : Rule} {j : Json} {name line : String} {items : List Json}
  {n : Int} {payload : List Char} {fields : Vmess.Fields}

/-- A rule of a JSON file lists an integer as allowed for a name, and the payload of a line has it
in the field of that name. Within the signed range the integer has one text in both places; beyond,
it has so at most if it is a multiple of a hundred. If it has, the rule has no objection to the
value, so that the line is accepted or rejected as without the list. If it has not and there is
nothing else on the list, the line is not accepted. -/
theorem accepts_listed_number (words : WordList) (hclaims : Protocol.vmess.claims line = true)
    (hpayload : afterScheme? Protocol.vmess.scheme.toList line.toList = some payload)
    (hfields : Vmess.readFields payload = .ok fields)
    (hget : rules.get? Protocol.vmess.scheme = some rule)
    (hrule : RuleFile.rule? .json j.document = some rule) (hlists : j.ListsAllowed name items)
    (hmem : .number (.int n) ∈ items) (hfield : fields.get? name = some (.number (.int n)))
    (hhigh : n < 0x1_0000_0000_0000_0000) :
    (n < 0x8000_0000_0000_0000 → Vmess.ComparesAlike (.int n)) ∧
      (Vmess.ComparesAlike (.int n) → n < 0x8000_0000_0000_0000 ∨ 100 ∣ n) ∧
      (Vmess.ComparesAlike (.int n) →
        rule.AllowsAt (Vmess.policyParams fields) name ∧
          ∀ text, (ofRules .empty words).process line = .ok text →
            (ofRules rules words).process line = .ok text ∨
              ∃ v, rule.ObjectsFirst (Vmess.policyParams fields) v ∧
                (∀ value values, v ≠ .notAllowed name value values) ∧
                (ofRules rules words).process line = .error (.violation Vmess.title v)) ∧
      (items = [.number (.int n)] → ∀ text, (ofRules rules words).process line = .ok text →
        Vmess.ComparesAlike (.int n)) := by
  refine ⟨Vmess.comparesAlike_of_lt, ?_, ?_, ?_⟩
  · intro halike
    rcases Int.lt_or_le n 0x8000_0000_0000_0000 with hlt | hge
    · exact .inl hlt
    · exact .inr (Vmess.hundred_dvd_of_comparesAlike hge hhigh halike)
  · intro halike
    have hallows := Vmess.allowsAt_of_comparesAlike hrule hlists hmem hfield halike
    refine ⟨hallows, fun text hprocess => ?_⟩
    obtain ⟨draft, params, hdraft, hparams, hverdict⟩ :=
      process_of_process_empty hclaims hget hprocess
    obtain rfl := Vmess.params_of_draft hpayload hfields hdraft hparams
    rcases hverdict with ⟨-, haccepted⟩ | ⟨v, hv, hrejected⟩
    · exact .inl haccepted
    · have hobjects := Rule.violation?_eq_some_iff.1 hv
      refine .inr ⟨v, hobjects, ?_, hrejected⟩
      rintro value values rfl
      cases hobjects with
      | notAllowed _ hvalues hvalue hnot _ => exact hnot (hallows values value hvalues hvalue)
  · rintro rfl text hprocess
    obtain ⟨-, draft, hdraft, hjudge⟩ := (process_eq_ok hclaims).1 hprocess
    obtain ⟨-, ⟨params, hparams, hpasses⟩, -⟩ := Screen.judge_eq_ok.1 hjudge
    obtain rfl := Vmess.params_of_draft hpayload hfields hdraft hparams
    have hnone : rule.violation? (Vmess.policyParams fields) = none :=
      (Screen.violation?_forProtocol hget _ _).symm.trans (Screen.enforce_eq_ok.1 hpasses)
    have hmet := Rule.violation?_eq_none_iff.1 hnone
    exact Vmess.comparesAlike_of_allowsAt hrule hlists hfield (hmet.allowed name)

/-- A JSON rule that lists one integer as allowed for the name `n`. -/
def listOnly (n : Int) : Json :=
  .object [("allowed_values", .object [("n", .array [.number (.int n)])])]

/-- What that rule is read as, given the text of the integer. -/
def allowsOnly (text : String) : Rule :=
  { allowed := .ofList [("n", [text])] }

/-- The fields of a link to `a.b` with an integer in the field `n`. -/
def fieldsWithNumber (n : Int) : Vmess.Fields :=
  Json.canonicalFields [("add", .text "a.b"), ("id", .text "u"), ("n", .number (.int n)),
    ("port", .number (.int 1))]

theorem listsAllowed_listOnly (n : Int) : (listOnly n).ListsAllowed "n" [.number (.int n)] :=
  ⟨_, rfl, rfl⟩

theorem readFields_fieldsWithNumber {data : String}
    (hdata : Base64.decodeDetected payload = .ok (Text.Utf8.encode data.toList))
    (hread : Json.read? data.toList = some (.object [("add", .text "a.b"), ("id", .text "u"),
      ("n", .number (.int n)), ("port", .number (.int 1))])) :
    Vmess.readFields payload = .ok (fieldsWithNumber n) :=
  Vmess.readFields_eq_ok.2 ⟨_, _, _, hdata, Text.Utf8.decode?_encode _, hread, rfl⟩

/-- The draft of a link with these fields. -/
def draftWithNumber (n : Int) : Draft where
  label := ""
  params := .ok (Vmess.policyParams (fieldsWithNumber n))
  canonical := Vmess.text (fieldsWithNumber n)

/-- A line with these fields for payload passes without rules. -/
theorem process_of_fieldsWithNumber (hclaims : Protocol.vmess.claims line = true)
    (hlength : line.utf8ByteSize ≤ maxLineLength)
    (hpayload : afterScheme? "vmess".toList line.toList = some payload)
    (hempty : payload.isEmpty = false)
    (hfields : Vmess.readFields payload = .ok (fieldsWithNumber n))
    (hdraftOf : Vmess.draftOf (fieldsWithNumber n) = .ok (draftWithNumber n)) :
    (ofRules .empty .empty).process line = .ok (Vmess.text (fieldsWithNumber n)) :=
  process_of_draftOf hclaims hlength hpayload hempty hfields hdraftOf
    (Screen.judge_eq_ok.2 ⟨rfl, ⟨_, rfl, rfl⟩, rfl⟩)

/-- The line with the payload `{"add":"a.b","id":"u","n":9223372036854775807,"port":1}`. -/
def lineWithGreatest : String :=
  "vmess://eyJhZGQiOiJhLmIiLCJpZCI6InUiLCJuIjo5MjIzMzcyMDM2ODU0Nzc1ODA3LCJwb3J0IjoxfQ=="

/-- The line with the payload `{"add":"a.b","id":"u","n":9223372036854775808,"port":1}`. -/
def lineBeyond : String :=
  "vmess://eyJhZGQiOiJhLmIiLCJpZCI6InUiLCJuIjo5MjIzMzcyMDM2ODU0Nzc1ODA4LCJwb3J0IjoxfQ=="

/-- The greatest integer of the signed range passes under a rule that lists nothing else. -/
theorem accepts_listed_number_greatest :
    ∃ rule payload fields text,
      RuleFile.rule? .json (listOnly 0x7fff_ffff_ffff_ffff).document = some rule ∧
      afterScheme? Protocol.vmess.scheme.toList lineWithGreatest.toList = some payload ∧
      Vmess.readFields payload = .ok fields ∧
      fields.get? "n" = some (.number (.int 0x7fff_ffff_ffff_ffff)) ∧
      Vmess.ComparesAlike (.int 0x7fff_ffff_ffff_ffff) ∧
      rule.AllowsAt (Vmess.policyParams fields) "n" ∧
      (ofRules (.ofList [("vmess", rule)]) .empty).process lineWithGreatest = .ok text := by
  have hclaims : Protocol.vmess.claims lineWithGreatest = true := rfl
  have hpayload : afterScheme? Protocol.vmess.scheme.toList lineWithGreatest.toList =
      some (lineWithGreatest.toList.drop 8) := rfl
  have hdata : Base64.decodeDetected (lineWithGreatest.toList.drop 8) =
      .ok (Text.Utf8.encode
        "\x7b\"add\":\"a.b\",\"id\":\"u\",\"n\":9223372036854775807,\"port\":1\x7d".toList) := by
    decide +kernel
  have hjson : Json.read?
      "\x7b\"add\":\"a.b\",\"id\":\"u\",\"n\":9223372036854775807,\"port\":1\x7d".toList =
        some (.object [("add", .text "a.b"), ("id", .text "u"),
          ("n", .number (.int 0x7fff_ffff_ffff_ffff)), ("port", .number (.int 1))]) := rfl
  have hfields := readFields_fieldsWithNumber hdata hjson
  have hrule : RuleFile.rule? .json (listOnly 0x7fff_ffff_ffff_ffff).document =
      some (allowsOnly "9223372036854775807") := by decide +kernel
  have hnone : (allowsOnly "9223372036854775807").violation?
      (Vmess.policyParams (fieldsWithNumber 0x7fff_ffff_ffff_ffff)) = none := by decide +kernel
  have hget : (RuleSet.ofList [("vmess", allowsOnly "9223372036854775807")]).get? "vmess" =
      some (allowsOnly "9223372036854775807") := by decide +kernel
  have hprocess := process_of_fieldsWithNumber hclaims (by decide) hpayload rfl hfields rfl
  obtain ⟨halike, -, hallows, -⟩ := accepts_listed_number .empty hclaims hpayload hfields hget
    hrule (listsAllowed_listOnly _) List.mem_cons_self rfl (by decide)
  obtain ⟨hallowed, haccepts⟩ := hallows (halike (by decide))
  rcases haccepts _ hprocess with haccepted | ⟨v, hobjects, -, -⟩
  · exact ⟨_, _, _, _, hrule, hpayload, hfields, rfl, halike (by decide), hallowed, haccepted⟩
  · rw [← Rule.violation?_eq_some_iff, hnone] at hobjects
    cases hobjects

/-- The first integer beyond the signed range is rejected under the rule that lists it. -/
theorem rejects_listed_number :
    ∃ rules payload fields text,
      RuleFile.read? .json ("\x7b\"vmess\": \x7b\"allowed_values\": " ++
        "\x7b\"n\": [9223372036854775808]\x7d\x7d\x7d") = some rules ∧
      afterScheme? Protocol.vmess.scheme.toList lineBeyond.toList = some payload ∧
      Vmess.readFields payload = .ok fields ∧
      fields.get? "n" = some (.number (.int 0x8000_0000_0000_0000)) ∧
      (ofRules .empty .empty).process lineBeyond = .ok text ∧
      (ofRules rules .empty).process lineBeyond =
        .error (.violation Vmess.title
          (.notAllowed "n" "9223372036854775808" ["9223372036854776000"])) := by
  have hclaims : Protocol.vmess.claims lineBeyond = true := rfl
  have hpayload : afterScheme? Protocol.vmess.scheme.toList lineBeyond.toList =
      some (lineBeyond.toList.drop 8) := rfl
  have hdata : Base64.decodeDetected (lineBeyond.toList.drop 8) =
      .ok (Text.Utf8.encode
        "\x7b\"add\":\"a.b\",\"id\":\"u\",\"n\":9223372036854775808,\"port\":1\x7d".toList) := by
    decide +kernel
  have hjson : Json.read?
      "\x7b\"add\":\"a.b\",\"id\":\"u\",\"n\":9223372036854775808,\"port\":1\x7d".toList =
        some (.object [("add", .text "a.b"), ("id", .text "u"),
          ("n", .number (.int 0x8000_0000_0000_0000)), ("port", .number (.int 1))]) := rfl
  have hfields := readFields_fieldsWithNumber hdata hjson
  have hrules : RuleFile.read? .json ("\x7b\"vmess\": \x7b\"allowed_values\": " ++
      "\x7b\"n\": [9223372036854775808]\x7d\x7d\x7d") =
        some (.ofList [("vmess", allowsOnly "9223372036854776000")]) := by decide +kernel
  have hobjects : (allowsOnly "9223372036854776000").violation?
      (Vmess.policyParams (fieldsWithNumber 0x8000_0000_0000_0000)) =
        some (.notAllowed "n" "9223372036854775808" ["9223372036854776000"]) := by decide +kernel
  have hget : (RuleSet.ofList [("vmess", allowsOnly "9223372036854776000")]).get? "vmess" =
      some (allowsOnly "9223372036854776000") := by decide +kernel
  have hprocess := process_of_fieldsWithNumber hclaims (by decide) hpayload rfl hfields rfl
  obtain ⟨draft, params, hdraft, hparams, hverdict⟩ :=
    process_of_process_empty hclaims hget hprocess
  obtain rfl := Vmess.params_of_draft hpayload hfields hdraft hparams
  rcases hverdict with ⟨hnone, -⟩ | ⟨v, hv, hrejected⟩
  · rw [hobjects] at hnone
    cases hnone
  · obtain rfl := Option.some.inj (hobjects.symm.trans hv)
    exact ⟨_, _, _, _, hrules, hpayload, hfields, rfl, hprocess, hrejected⟩

end Link.Dispatcher

end LinkSieve
