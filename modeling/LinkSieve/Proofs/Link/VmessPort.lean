import LinkSieve.Proofs.Decimal.Binary64
import LinkSieve.Proofs.Link.Screening
import LinkSieve.Proofs.Link.Vmess

/-!
# The port that a rule sees of a VMess link

The port is read in one way and shown to a rule in another. A number is shown as the decimal text of
the port that it is read as, however the number is spelled. A text is shown as it stands, while for
reading it is trimmed and may have zeros in front, a sign, a fraction without value or an exponent.
A rule about ports therefore binds numbers and plain decimal texts, and no other spelling.
-/

namespace LinkSieve.Link

namespace Vmess

variable {fields : Fields} {port : Nat}

/-- The port is given as a number, or as the text of its decimal digits and nothing else. -/
def GivesPlainly (fields : Fields) (port : Nat) : Prop :=
  ∀ s, fields.get? "port" = some (.text s) → s = toString port

theorem get?_policyParams (fields : Fields) (name : String) :
    (policyParams fields).get? name = (fields.get? name).bind paramText? :=
  Table.get?_filterMap _ fields name

theorem portOf_eq_ok {n : Option Int} : portOf n = .ok port ↔
    n = some (port : Int) ∧ 1 ≤ port ∧ port ≤ 65535 := by
  cases n with
  | none =>
      constructor
      · intro h
        cases h
      · rintro ⟨h, -⟩
        cases h
  | some n =>
      simp only [portOf, Address.isPort, Bool.and_eq_true, decide_eq_true_iff, Option.some.injEq]
      split
      · rw [Except.ok.injEq]
        omega
      · constructor
        · intro h
          cases h
        · omega

/-- A text of digits is read as the port that they denote, with zeros in front or without. -/
theorem readPort_digits {digits : List Char} (hne : digits ≠ [])
    (hdigits : ∀ c ∈ digits, Decimal.isDigit 10 c = true)
    (hport : 1 ≤ Decimal.ofDigits 10 digits ∧ Decimal.ofDigits 10 digits ≤ 65535) :
    readPort (some (.text (String.ofList digits))) = .ok (Decimal.ofDigits 10 digits) := by
  have hshown : ∀ c : Char, Decimal.isDigit 10 c = true → Text.isBlank c = false :=
    Decimal.forall_of_isDigit (by decide)
  have hblank : ∀ c ∈ digits, Text.isBlank c = false := fun c hc => hshown c (hdigits c hc)
  have htrim : Text.trim digits = digits :=
    Text.trimBy_eq_self (fun c hc => hblank c (List.mem_of_mem_head? hc))
      fun c hc => hblank c (List.mem_of_getLast? hc)
  have hread := Decimal.toInt?_readBinary64? hne hdigits (by omega) (by omega)
  obtain ⟨x, hx, hint⟩ := Option.bind_eq_some_iff.1 hread
  simp only [readPort, String.toList_ofList, htrim, hx]
  exact portOf_eq_ok.2 ⟨hint, hport⟩

/-- A number is shown as the decimal text of the port that it is read as. -/
theorem numberText_of_readPort {n : Json.Number} (h : readPort (some (.number n)) = .ok port) :
    numberText n = toString port := by
  cases n with
  | int n =>
      have hread : portOf (some n) = .ok port := h
      obtain ⟨hport, -, -⟩ := portOf_eq_ok.1 hread
      rw [numberText, Option.some.inj hport]
      rfl
  | float x =>
      have hread : portOf x.toInt? = .ok port := h
      obtain ⟨hport, -, hle⟩ := portOf_eq_ok.1 hread
      have hsmall : (port : Int).natAbs < 1_000_000_000_000_000 := by omega
      simp only [numberText, hport, if_pos hsmall]
      rfl

/-- A rule sees the decimal text of the port that has been read just if the port is given as a
number or as that text. -/
theorem get?_port_eq_iff (h : readPort (fields.get? "port") = .ok port) :
    (policyParams fields).get? "port" = some (toString port) ↔ GivesPlainly fields port := by
  rw [get?_policyParams, GivesPlainly]
  cases hfield : fields.get? "port" with
  | none =>
      rw [hfield] at h
      cases h
  | some value =>
      rw [hfield] at h
      cases value with
      | number n =>
          simp [paramText?, numberText_of_readPort h]
      | text s => simp [paramText?]
      | null => cases h
      | bool b => cases h
      | array items => cases h
      | object fields => cases h

/-- The port of a link that has a draft. -/
theorem exists_port_of_draftOf {draft : Draft} (h : draftOf fields = .ok draft) :
    (∃ port, readPort (fields.get? "port") = .ok port) ∧
      draft.params = .ok (policyParams fields) := by
  rw [draftOf] at h
  obtain ⟨-, h⟩ := Outcome.check_eq_ok.1 h
  obtain ⟨port, hport, h⟩ := Outcome.bind_eq_ok.1 h
  obtain ⟨-, h⟩ := Outcome.check_eq_ok.1 h
  refine ⟨⟨port, hport⟩, ?_⟩
  rw [Outcome.pure_eq_ok.1 h]

end Vmess

namespace Dispatcher

variable {line text : String} {payload : List Char}

/-- Of fields with a port a rule sees its decimal text just if the port is given as a number or as
that text, whatever becomes of the line. An accepted line has such fields, and a port given in this
way is one that the rule permits. -/
theorem permits_port_of_process (rules : Policy.RuleSet) (words : Policy.WordList) :
    (∀ payload fields port, Vmess.readFields payload = .ok fields →
      Vmess.readPort (fields.get? "port") = .ok port →
      ((Vmess.policyParams fields).get? "port" = some (toString port) ↔
        Vmess.GivesPlainly fields port)) ∧
    ∀ line text, Protocol.vmess.claims line = true →
      (ofRules rules words).process line = .ok text →
      ∃ payload fields port, afterScheme? Protocol.vmess.scheme.toList line.toList = some payload ∧
        Vmess.readFields payload = .ok fields ∧
        Vmess.readPort (fields.get? "port") = .ok port ∧
        ((Vmess.policyParams fields).get? "port" = some (toString port) ↔
          Vmess.GivesPlainly fields port) ∧
        (Vmess.GivesPlainly fields port → ∀ rule,
          rules.get? Protocol.vmess.scheme = some rule →
            rule.Permits "port" (toString port)) := by
  constructor
  · intro payload fields port _ hport
    exact Vmess.get?_port_eq_iff hport
  · intro line text hclaims hprocess
    obtain ⟨-, draft, hdraft, hjudge⟩ := (process_eq_ok hclaims).1 hprocess
    obtain ⟨-, ⟨params, hparams, hrule⟩, -⟩ := Screen.judge_eq_ok.1 hjudge
    obtain ⟨-, payload, fields, hpayload, -, hfields, hdraftOf⟩ := Vmess.draft_eq_ok.1 hdraft
    obtain ⟨⟨port, hport⟩, hshown⟩ := Vmess.exists_port_of_draftOf hdraftOf
    obtain rfl : params = Vmess.policyParams fields := Except.ok.inj (hparams.symm.trans hshown)
    have hsees := Vmess.get?_port_eq_iff hport
    refine ⟨payload, fields, port, hpayload, hfields, hport, hsees, ?_⟩
    intro hplain rule hget
    exact Screen.permits_of_enforce hrule hget (hsees.2 hplain)

/-- Rules that forbid one value of one parameter of one protocol. -/
def forbidOnly (protocol name value : String) : Policy.RuleSet :=
  .ofList [(protocol, { forbidden := .ofList [(name, [value])] })]

/-- The fields of a link to `a.b` with a given port. -/
def fieldsWithPort (port : Json) : Vmess.Fields :=
  Json.canonicalFields [("add", .text "a.b"), ("id", .text "u"), ("port", port)]

/-- The draft of a link with these fields. -/
def draftWithPort (port : Json) : Draft where
  label := ""
  params := .ok (Vmess.policyParams (fieldsWithPort port))
  canonical := Vmess.text (fieldsWithPort port)

theorem readFields_fieldsWithPort {data : String} {port : Json}
    (hdata : Base64.decodeDetected payload = .ok (Text.Utf8.encode data.toList))
    (hread : Json.read? data.toList =
      some (.object [("add", .text "a.b"), ("id", .text "u"), ("port", port)])) :
    Vmess.readFields payload = .ok (fieldsWithPort port) :=
  Vmess.readFields_eq_ok.2 ⟨_, _, _, hdata, Text.Utf8.decode?_encode _, hread, rfl⟩

/-- A line whose payload is that of fields with a draft becomes what the screen makes of it. -/
theorem process_of_draftOf {rules : Policy.RuleSet} {words : Policy.WordList}
    {fields : Vmess.Fields} {draft : Draft}
    (hclaims : Protocol.vmess.claims line = true) (hlength : line.utf8ByteSize ≤ maxLineLength)
    (hpayload : afterScheme? "vmess".toList line.toList = some payload)
    (hempty : payload.isEmpty = false) (hfields : Vmess.readFields payload = .ok fields)
    (hdraftOf : Vmess.draftOf fields = .ok draft)
    (hjudge : (Screen.forProtocol rules "vmess" words).judge "VMess" draft = .ok text) :
    (ofRules rules words).process line = .ok text := by
  have hdraft := Vmess.draft_eq_ok.2 ⟨hlength, payload, _, hpayload, hempty, hfields, hdraftOf⟩
  exact (process_eq_ok hclaims).2 ⟨hlength, _, hdraft, hjudge⟩

/-- A line with these fields for payload is accepted if the rules have nothing against them. -/
theorem process_of_fieldsWithPort {rules : Policy.RuleSet} {port : Json}
    (hclaims : Protocol.vmess.claims line = true) (hlength : line.utf8ByteSize ≤ maxLineLength)
    (hpayload : afterScheme? "vmess".toList line.toList = some payload)
    (hempty : payload.isEmpty = false)
    (hfields : Vmess.readFields payload = .ok (fieldsWithPort port))
    (hdraftOf : Vmess.draftOf (fieldsWithPort port) = .ok (draftWithPort port))
    (hrule : (Screen.forProtocol rules "vmess" .empty).enforce "VMess"
      (Vmess.policyParams (fieldsWithPort port)) = .ok ()) :
    (ofRules rules .empty).process line = .ok (Vmess.text (fieldsWithPort port)) :=
  process_of_draftOf hclaims hlength hpayload hempty hfields hdraftOf
    (Screen.judge_eq_ok.2 ⟨rfl, ⟨_, rfl, hrule⟩, rfl⟩)

/-- The number `443.0`. -/
def float443 : Json :=
  .number (.float (.finite false ⟨443 <<< 44, -44⟩))

theorem read?_float443 : Json.read? "\x7b\"add\":\"a.b\",\"id\":\"u\",\"port\":443.0\x7d".toList =
    some (.object [("add", .text "a.b"), ("id", .text "u"), ("port", float443)]) :=
  rfl

/-- The port of `{"add":"a.b","id":"u","port":443.0}` is shown as `443`. -/
theorem permits_port_of_process_float :
    ∃ payload fields port,
      afterScheme? Protocol.vmess.scheme.toList
        "vmess://eyJhZGQiOiJhLmIiLCJpZCI6InUiLCJwb3J0Ijo0NDMuMH0=".toList = some payload ∧
      Vmess.readFields payload = .ok fields ∧
      Vmess.readPort (fields.get? "port") = .ok port ∧
      (Vmess.policyParams fields).get? "port" = some (toString port) ∧
      ∀ rule, (allowOnly "vmess" "port" "443").get? Protocol.vmess.scheme = some rule →
        rule.Permits "port" (toString port) := by
  have hclaims : Protocol.vmess.claims
      "vmess://eyJhZGQiOiJhLmIiLCJpZCI6InUiLCJwb3J0Ijo0NDMuMH0=" = true := rfl
  have hfound : afterScheme? "vmess".toList
      "vmess://eyJhZGQiOiJhLmIiLCJpZCI6InUiLCJwb3J0Ijo0NDMuMH0=".toList =
        some "eyJhZGQiOiJhLmIiLCJpZCI6InUiLCJwb3J0Ijo0NDMuMH0=".toList := rfl
  have hdata : Base64.decodeDetected "eyJhZGQiOiJhLmIiLCJpZCI6InUiLCJwb3J0Ijo0NDMuMH0=".toList =
      .ok (Text.Utf8.encode "\x7b\"add\":\"a.b\",\"id\":\"u\",\"port\":443.0\x7d".toList) := rfl
  have hfields := readFields_fieldsWithPort hdata read?_float443
  have hrule : (Screen.forProtocol (allowOnly "vmess" "port" "443") "vmess" .empty).enforce "VMess"
      (Vmess.policyParams (fieldsWithPort float443)) = .ok () := rfl
  have hprocess := process_of_fieldsWithPort hclaims (by decide) hfound rfl hfields rfl hrule
  obtain ⟨hshown, haccepted⟩ := permits_port_of_process (allowOnly "vmess" "port" "443") .empty
  obtain ⟨payload, fields, port, hpayload, hread, hport, -, hpermits⟩ :=
    haccepted _ _ hclaims hprocess
  obtain rfl := Option.some.inj (hfound.symm.trans hpayload)
  obtain rfl := Except.ok.inj (hfields.symm.trans hread)
  have hplain : Vmess.GivesPlainly (fieldsWithPort float443) port := by
    intro s hs
    cases hs
  exact ⟨_, _, port, hpayload, hread, hport, (hshown _ _ _ hread hport).2 hplain,
    hpermits hplain⟩

/-- The port of `{"add":"a.b","id":"u","port":"0443"}` is 443, a rule sees `0443`, and the rule that
forbids 443 lets the line pass. -/
theorem process_hides_port :
    ∃ payload fields text,
      afterScheme? Protocol.vmess.scheme.toList
        "vmess://eyJhZGQiOiJhLmIiLCJpZCI6InUiLCJwb3J0IjoiMDQ0MyJ9".toList = some payload ∧
      Vmess.readFields payload = .ok fields ∧
      Vmess.readPort (fields.get? "port") = .ok 443 ∧
      (Vmess.policyParams fields).get? "port" = some "0443" ∧
      (ofRules (forbidOnly "vmess" "port" "443") .empty).process
        "vmess://eyJhZGQiOiJhLmIiLCJpZCI6InUiLCJwb3J0IjoiMDQ0MyJ9" = .ok text := by
  have hclaims : Protocol.vmess.claims
      "vmess://eyJhZGQiOiJhLmIiLCJpZCI6InUiLCJwb3J0IjoiMDQ0MyJ9" = true := rfl
  have hfound : afterScheme? "vmess".toList
      "vmess://eyJhZGQiOiJhLmIiLCJpZCI6InUiLCJwb3J0IjoiMDQ0MyJ9".toList =
        some "eyJhZGQiOiJhLmIiLCJpZCI6InUiLCJwb3J0IjoiMDQ0MyJ9".toList := rfl
  have hdata : Base64.decodeDetected "eyJhZGQiOiJhLmIiLCJpZCI6InUiLCJwb3J0IjoiMDQ0MyJ9".toList =
      .ok (Text.Utf8.encode "\x7b\"add\":\"a.b\",\"id\":\"u\",\"port\":\"0443\"\x7d".toList) := rfl
  have hjson : Json.read? "\x7b\"add\":\"a.b\",\"id\":\"u\",\"port\":\"0443\"\x7d".toList =
      some (.object [("add", .text "a.b"), ("id", .text "u"), ("port", .text "0443")]) := rfl
  have hfields := readFields_fieldsWithPort hdata hjson
  have hrule : (Screen.forProtocol (forbidOnly "vmess" "port" "443") "vmess" .empty).enforce "VMess"
      (Vmess.policyParams (fieldsWithPort (.text "0443"))) = .ok () := rfl
  have hprocess := process_of_fieldsWithPort hclaims (by decide) hfound rfl hfields rfl hrule
  have hport : Vmess.readPort (some (.text (String.ofList "0443".toList))) = .ok 443 :=
    Vmess.readPort_digits (by decide) (Text.forall_of_all (by decide)) (by decide)
  exact ⟨_, _, _, hfound, hfields, hport, rfl, hprocess⟩

end Dispatcher

end LinkSieve.Link
