import LinkSieve.Proofs.Address.Ipv6
import LinkSieve.Proofs.Text.Lowercase
import LinkSieve.Proofs.Url.Normal

/-!
# Reading back a URL

The text of a normal URL that names a server is read as that URL. Each part of the text is found
again because no part holds a character that would end it, and is kept as it is because nothing
in it is left to escape.
-/

namespace LinkSieve.Url

open Address (Ipv6)

/-- The characters of ASCII that show, which is all but the control characters and the space. -/
def IsGraphic (c : Char) : Prop :=
  0x20 < c.toNat ∧ c.toNat < 0x7F

instance : DecidablePred IsGraphic :=
  fun _ => inferInstanceAs (Decidable (_ ∧ _))

theorem isGraphic_of_not_always {c : Char} (h : Escaped.always c = false) (hspace : c ≠ ' ') :
    IsGraphic c := by
  have hne : c.toNat ≠ 0x20 := fun heq => hspace (Char.toNat_inj.1 heq)
  simp only [Escaped.always, Bool.or_eq_false_iff, decide_eq_false_iff_not] at h
  exact ⟨by omega, by omega⟩

theorem isGraphic_of_inFragment {c : Char} (h : Escaped.inFragment c = false) : IsGraphic c := by
  simp only [Escaped.inFragment, Bool.or_eq_false_iff, decide_eq_false_iff_not] at h
  exact isGraphic_of_not_always h.1.1.1.1.1 h.1.1.1.1.2

theorem inFragment_of_inPath {c : Char} (h : Escaped.inPath c = false) :
    Escaped.inFragment c = false := by
  simp only [Escaped.inPath, Bool.or_eq_false_iff] at h
  exact h.1.1.1.1

theorem inPath_of_inUserinfo {c : Char} (h : Escaped.inUserinfo c = false) :
    Escaped.inPath c = false := by
  simp only [Escaped.inUserinfo, Bool.or_eq_false_iff] at h
  exact h.1.1.1.1.1.1.1.1.1.1

theorem isGraphic_of_inPath {c : Char} (h : Escaped.inPath c = false) : IsGraphic c :=
  isGraphic_of_inFragment (inFragment_of_inPath h)

theorem isGraphic_of_inQuery {c : Char} (h : Escaped.inQuery false c = false) : IsGraphic c := by
  simp only [Escaped.inQuery, Bool.or_eq_false_iff, decide_eq_false_iff_not] at h
  exact isGraphic_of_not_always h.1.1.1.1.1.1 h.1.1.1.1.1.2

theorem toNat_of_isAlphanum {c : Char} (h : c.isAlphanum = true) :
    0x30 ≤ c.toNat ∧ c.toNat ≤ 0x7A := by
  have hrange := Text.isAlphanum_iff.1 h
  omega

/-- Letters and digits stand for themselves in credentials. -/
theorem inUserinfo_of_isAlphanum {c : Char} (h : c.isAlphanum = true) :
    Escaped.inUserinfo c = false := by
  have hall : ∀ c : Char, c.toNat < 0x7B → c.isAlphanum = true → Escaped.inUserinfo c = false :=
    Text.forall_of_ofNat (by decide)
  have hrange := toNat_of_isAlphanum h
  exact hall c (by omega) h

/-- Letters and digits stand for themselves in a query. -/
theorem inQuery_of_isAlphanum {web : Bool} {c : Char} (h : c.isAlphanum = true) :
    Escaped.inQuery web c = false := by
  have hall : ∀ c : Char, c.toNat < 0x7B → c.isAlphanum = true →
      ∀ web, Escaped.inQuery web c = false := Text.forall_of_ofNat (by decide)
  have hrange := toNat_of_isAlphanum h
  exact hall c (by omega) h web

theorem isGraphic_of_isSchemeChar {c : Char} (h : isSchemeChar c = true) : IsGraphic c := by
  simp only [isSchemeChar, Bool.or_eq_true, decide_eq_true_iff] at h
  rcases h with ((h | rfl) | rfl) | rfl
  · have hrange := toNat_of_isAlphanum h
    exact ⟨by omega, by omega⟩
  · decide
  · decide
  · decide

/-- A text without tabs and line breaks. -/
def withoutBreaks (cs : List Char) : List Char :=
  cs.filter fun c => !(c = '\t' || c = '\n' || c = '\r')

theorem withoutBreaks_append (as bs : List Char) :
    withoutBreaks (as ++ bs) = withoutBreaks as ++ withoutBreaks bs :=
  List.filter_append as bs

theorem withoutBreaks_eq_self {cs : List Char} (h : ∀ c ∈ cs, 0x20 < c.toNat) :
    withoutBreaks cs = cs := by
  rw [withoutBreaks, List.filter_eq_self]
  intro c hc
  have hc := h c hc
  simp only [Bool.not_eq_true', Bool.or_eq_false_iff, decide_eq_false_iff_not]
  refine ⟨⟨?_, ?_⟩, ?_⟩
  all_goals
    rintro rfl
    exact absurd hc (by decide)

/-- What is left of a text that ends a longer one. -/
def cleanEnd (cs : List Char) : List Char :=
  (Text.trimEnd (·.toNat ≤ 0x20) cs).filter fun c => !(c = '\t' || c = '\n' || c = '\r')

/-- A part without blanks and control characters is taken as it is. -/
theorem cleanEnd_append {front : List Char} (h : ∀ c ∈ front, 0x20 < c.toNat) (cs : List Char) :
    cleanEnd (front ++ cs) = front ++ cleanEnd cs := by
  have hkeep : ∀ c ∈ front, decide (c.toNat ≤ 0x20) = false :=
    fun c hc => decide_eq_false (Nat.not_le.2 (h c hc))
  have hbreaks := withoutBreaks_append front (Text.trimEnd (·.toNat ≤ 0x20) cs)
  rw [withoutBreaks_eq_self h] at hbreaks
  rw [cleanEnd, Text.trimEnd_append hkeep]
  exact hbreaks

theorem cleanEnd_eq_self {cs : List Char} (h : ∀ c ∈ cs, 0x20 < c.toNat) : cleanEnd cs = cs := by
  have happend := cleanEnd_append h []
  have hnil : cleanEnd [] = [] := rfl
  rwa [List.append_nil, hnil, List.append_nil] at happend

theorem cleanEnd_led {mark : Char} (hmark : 0x20 < mark.toNat) (part : Option (List Char)) :
    cleanEnd (Text.led mark part) = Text.led mark (part.map cleanEnd) := by
  cases part with
  | none => rfl
  | some cs => exact cleanEnd_append (List.forall_mem_singleton.2 hmark) cs

theorem head?_cleanEnd {c d : Char} {cs : List Char} (hc : 0x20 < c.toNat)
    (h : (cleanEnd (c :: cs)).head? = some d) : d = c := by
  have happend := cleanEnd_append (List.forall_mem_singleton.2 hc) cs
  rw [List.singleton_append] at happend
  rw [happend] at h
  exact (Option.some.inj h).symm

/-- Only the end of a text is cleaned that begins with neither blanks nor control characters. -/
theorem clean_append {front : List Char} (hne : front ≠ []) (h : ∀ c ∈ front, 0x20 < c.toNat)
    (cs : List Char) : clean (front ++ cs) = front ++ cleanEnd cs := by
  have hhead : (front ++ cs).dropWhile (·.toNat ≤ 0x20) = front ++ cs := by
    apply Text.dropWhile_eq_self_of_head?
    intro c hc
    cases front with
    | nil => exact absurd rfl hne
    | cons d front =>
        obtain rfl := Option.some.inj hc
        exact decide_eq_false (Nat.not_le.2 (h d List.mem_cons_self))
  rw [clean, Text.trimBy, hhead]
  exact cleanEnd_append h cs

theorem clean_eq_self {cs : List Char} (h : ∀ c ∈ cs, 0x20 < c.toNat) : clean cs = cs := by
  cases cs with
  | nil => rfl
  | cons c cs =>
      have happend := clean_append (List.cons_ne_nil c cs) h []
      have hnil : cleanEnd [] = [] := rfl
      rwa [List.append_nil, hnil, List.append_nil] at happend

/-- The text of a host as it stands before a port. -/
inductive Host.Writes : List Char → Host → Prop where
  | name (text : String) : Writes text.toList (.name text)
  | ipv6 (ip : Ipv6) : Writes ('[' :: (ip.text ++ [']'])) (.ipv6 ip)

section Host

variable {cs : List Char} {h : Host}

/-- A character that may stand in a host does not end it before its port. -/
theorem Host.inner_of_isForbidden {c : Char} (hforbidden : Host.isForbidden c = false)
    (halways : Escaped.always c = false) :
    0x20 < c.toNat ∧ c ≠ '@' ∧ endsAuthority false c = false := by
  rw [Host.isForbidden, Bool.or_eq_false_iff, List.contains_eq_mem,
    decide_eq_false_iff_not] at hforbidden
  have hne : ∀ d ∈ "#/:<>?@[\\]^| ".toList, c ≠ d := by
    rintro d hd rfl
    exact hforbidden.2 hd
  have hgraphic := isGraphic_of_not_always halways (hne ' ' (by decide))
  refine ⟨hgraphic.1, hne '@' (by decide), ?_⟩
  simp [endsAuthority, hne '/' (by decide), hne '?' (by decide), hne '#' (by decide)]

/-- What is known of the characters of a host: none of them ends it before its port. -/
theorem Host.Writes.mem (hw : Host.Writes cs h) (ho : h.IsOpaque) {c : Char} (hc : c ∈ cs) :
    0x20 < c.toNat ∧ c ≠ '@' ∧ endsAuthority false c = false := by
  cases hw with
  | name text => exact Host.inner_of_isForbidden (ho.2 c hc).1 (ho.2 c hc).2
  | ipv6 ip =>
      have hmem : c ∈ Decimal.digitChars ∨ c ∈ ":.[]".toList := by
        rw [List.mem_cons, List.mem_append, List.mem_singleton] at hc
        rcases hc with rfl | hc | rfl
        · exact .inr (by decide)
        · rcases Ipv6.mem_text hc with hc | rfl | rfl
          · exact .inl hc
          · exact .inr (by decide)
          · exact .inr (by decide)
        · exact .inr (by decide)
      have hall : ∀ d ∈ Decimal.digitChars ++ ":.[]".toList,
          0x20 < d.toNat ∧ d ≠ '@' ∧ endsAuthority false d = false :=
        Text.forall_of_all (by decide)
      exact hall c (List.mem_append.2 hmem)

theorem Host.Writes.isGraphic (hw : Host.Writes cs h) (ho : h.IsOpaque) {c : Char} (hc : c ∈ cs) :
    IsGraphic c := by
  cases hw with
  | name text =>
      have hspace : c ≠ ' ' := by
        rintro rfl
        exact absurd (ho.2 _ hc).1 (by decide)
      exact isGraphic_of_not_always (ho.2 c hc).2 hspace
  | ipv6 ip =>
      have hall : ∀ d ∈ Decimal.digitChars, IsGraphic d := Text.forall_of_all (by decide)
      rw [List.mem_cons, List.mem_append, List.mem_singleton] at hc
      rcases hc with rfl | hc | rfl
      · decide
      · rcases Ipv6.mem_text hc with hc | rfl | rfl
        · exact hall c hc
        · decide
        · decide
      · decide

theorem takeHost_append (bracketed : Bool) (cs : List Char) :
    (Authority.takeHost bracketed cs).1 ++ (Authority.takeHost bracketed cs).2 = cs := by
  induction cs generalizing bracketed with
  | nil => rfl
  | cons c cs ih =>
      rw [Authority.takeHost]
      split
      · rfl
      · exact congrArg (c :: ·) (ih _)

/-- A host ends where the text does, or at the colon before a port. -/
theorem takeHost_end {rest : List Char} (hrest : ∀ c, rest.head? = some c → c = ':') :
    Authority.takeHost false rest = ([], rest) := by
  cases rest with
  | nil => rfl
  | cons c rest => simp [Authority.takeHost, hrest c rfl]

theorem takeHost_of_not_mem (h : ∀ c ∈ cs, c ≠ ':' ∧ c ≠ '[') {rest : List Char}
    (hrest : ∀ c, rest.head? = some c → c = ':') :
    Authority.takeHost false (cs ++ rest) = (cs, rest) := by
  induction cs with
  | nil => exact takeHost_end hrest
  | cons c cs ih =>
      obtain ⟨hcolon, hbracket⟩ := h c List.mem_cons_self
      have hrest := ih fun d hd => h d (List.mem_cons_of_mem c hd)
      simp [Authority.takeHost, hcolon, hbracket, hrest]

theorem takeHost_bracketed (h : ']' ∉ cs) {rest : List Char}
    (hrest : ∀ c, rest.head? = some c → c = ':') :
    Authority.takeHost true (cs ++ ']' :: rest) = (cs ++ [']'], rest) := by
  induction cs with
  | nil => simp [Authority.takeHost, takeHost_end hrest]
  | cons c cs ih =>
      obtain ⟨hc, hcs⟩ := not_or.1 (mt List.mem_cons.2 h)
      simp [Authority.takeHost, Ne.symm hc, ih hcs]

theorem Host.Writes.takeHost (hw : Host.Writes cs h) (ho : h.IsOpaque) (rest : List Char) :
    Authority.takeHost false (cs ++ ':' :: rest) = (cs, ':' :: rest) := by
  have hcolon : ∀ c, (':' :: rest).head? = some c → c = ':' := fun c hc => (Option.some.inj hc).symm
  cases hw with
  | name text =>
      refine takeHost_of_not_mem (fun c hc => ?_) hcolon
      constructor
      · rintro rfl
        exact absurd (ho.2 _ hc).1 (by decide)
      · rintro rfl
        exact absurd (ho.2 _ hc).1 (by decide)
  | ipv6 ip =>
      have hclose : ']' ∉ ip.text := fun hmem => absurd (Ipv6.mem_text hmem) (by decide)
      have hinner := takeHost_bracketed hclose hcolon
      simp [Authority.takeHost, hinner]

/-- A host reads back from its text. -/
theorem Host.Writes.readHost (hw : Host.Writes cs h) (ho : h.IsOpaque) :
    Authority.readHost false cs = .ok (some h) := by
  cases hw with
  | name text =>
      have hne : text.toList ≠ [] := fun hnil => ho.1 (String.toList_eq_nil_iff.1 hnil)
      have hread : Host.readOpaque text.toList = .ok (.name text) := by
        have hany : text.toList.any Host.isForbidden = false := by
          rw [List.any_eq_false]
          intro c hc
          rw [(ho.2 c hc).1]
          exact Bool.false_ne_true
        unfold Host.readOpaque
        split
        · rename_i inner heq
          exact absurd (ho.2 '[' (heq ▸ List.mem_cons_self)).1 (by decide)
        · rw [hany, Text.Percent.encode_eq_self fun c hc => (ho.2 c hc).2,
            String.ofList_toList]
          rfl
      rw [Authority.readHost, if_neg Bool.false_ne_true, if_neg (by simpa using hne), hread]
      rfl
  | ipv6 ip =>
      have hlast : (ip.text ++ [']']).getLast? = some ']' := by simp
      have hbracketed : Host.readBracketed (ip.text ++ [']']) = .ok (.ipv6 ip) := by
        rw [Host.readBracketed, if_pos hlast, List.dropLast_concat, Ipv6.read?_text]
      rw [Authority.readHost, if_neg Bool.false_ne_true, if_neg (by simp), Host.readOpaque,
        hbracketed]
      rfl

end Host

/-- The credentials of an authority as they stand before the at sign. -/
def Authority.userinfoText (a : Authority) : List Char :=
  match a.password with
  | some password => a.username ++ ':' :: password
  | none => a.username

theorem not_mem_of_inUserinfo {cs : List Char} (h : ∀ c ∈ cs, Escaped.inUserinfo c = false)
    {c : Char} (hc : Escaped.inUserinfo c = true) : c ∉ cs := by
  intro hmem
  rw [h c hmem] at hc
  cases hc

theorem readUserinfo_userinfoText {a : Authority} (ha : a.IsNormal) :
    Authority.readUserinfo a.userinfoText = (a.username, a.password) := by
  have huser := Text.Percent.encode_eq_self ha.username
  have hcolon : ':' ∉ a.username := not_mem_of_inUserinfo ha.username (by decide)
  rw [Authority.userinfoText]
  split
  · rename_i password hpassword
    obtain ⟨hne, hescaped⟩ := ha.password password hpassword
    rw [Authority.readUserinfo, Text.cutFirst?_append_cons hcolon, hpassword]
    simp only [huser, Text.Percent.encode_eq_self hescaped, List.isEmpty_iff, if_neg hne]
  · rename_i hnone
    rw [Authority.readUserinfo, Text.cutFirst?_eq_none hcolon, hnone]
    simp only [huser]

/-- A port of decimal digits is the number that they denote, unless that is too great for a port. -/
theorem readPort_digits {digits : List Char} (hne : digits ≠ [])
    (hdigits : ∀ c ∈ digits, Decimal.isDigit 10 c = true) :
    Authority.readPort none digits =
      if 65535 < Decimal.ofDigits 10 digits then .error .badPort
      else .ok (some (Decimal.ofDigits 10 digits), []) := by
  have htake : digits.takeWhile (Decimal.isDigit 10) = digits := Text.takeWhile_eq_self hdigits
  have hdrop : digits.dropWhile (Decimal.isDigit 10) = [] := Text.dropWhile_eq_nil hdigits
  have hempty : digits.isEmpty = false := List.isEmpty_eq_false_iff.2 hne
  rw [Authority.readPort, htake, hdrop, hempty]
  by_cases hbig : 65535 < Decimal.ofDigits 10 digits
  · simp [hbig]
  · simp [hbig]

section Authority

variable {a : Authority} {cs : List Char} {h : Host} {n : Nat}

/-- A text that names a server in an authority, with what it is read as. -/
structure IsServerText (server : List Char) (host : Host) (port : Option Nat) : Prop where
  read : Authority.readServer false none server = .ok (some host, port, [])
  inner : ∀ c ∈ server, 0x20 < c.toNat ∧ c ≠ '@' ∧ endsAuthority false c = false

/-- A text that names a host if a colon follows it. -/
structure IsHostBeforePort (cs : List Char) (host : Host) : Prop where
  take : ∀ rest, Authority.takeHost false (cs ++ ':' :: rest) = (cs, ':' :: rest)
  read : Authority.readHost false cs = .ok (some host)
  inner : ∀ c ∈ cs, 0x20 < c.toNat ∧ c ≠ '@' ∧ endsAuthority false c = false

theorem Host.Writes.isHostBeforePort (hw : Host.Writes cs h) (ho : h.IsOpaque) :
    IsHostBeforePort cs h :=
  ⟨hw.takeHost ho, hw.readHost ho, fun _ hc => hw.mem ho hc⟩

section Port

variable {digits : List Char}

/-- What is read of a host and a port is what is read of each. -/
theorem IsHostBeforePort.readServer_eq (hhost : IsHostBeforePort cs h) (digits : List Char) :
    Authority.readServer false none (cs ++ ':' :: digits) =
      (Authority.readPort none digits).map fun (port, more) => (some h, port, more) := by
  rw [Authority.readServer, hhost.take]
  simp only [hhost.read, Outcome.ok_bind, Option.isNone_some, Bool.false_eq_true, if_false]
  cases Authority.readPort none digits with
  | error e => rfl
  | ok port => rfl

theorem IsHostBeforePort.inner_append (hhost : IsHostBeforePort cs h)
    (hdigits : ∀ c ∈ digits, Decimal.isDigit 10 c = true) :
    ∀ c ∈ cs ++ ':' :: digits, 0x20 < c.toNat ∧ c ≠ '@' ∧ endsAuthority false c = false := by
  have hdigit : ∀ d : Char, Decimal.isDigit 10 d = true →
      0x20 < d.toNat ∧ d ≠ '@' ∧ endsAuthority false d = false :=
    Decimal.forall_of_isDigit (by decide)
  intro c hc
  rw [List.mem_append, List.mem_cons] at hc
  rcases hc with hc | rfl | hc
  · exact hhost.inner c hc
  · decide
  · exact hdigit c (hdigits c hc)

/-- A host names a server with the port behind it. -/
theorem IsHostBeforePort.isServerText (hhost : IsHostBeforePort cs h) (hne : digits ≠ [])
    (hdigits : ∀ c ∈ digits, Decimal.isDigit 10 c = true)
    (hfits : Decimal.ofDigits 10 digits ≤ 65535) :
    IsServerText (cs ++ ':' :: digits) h (some (Decimal.ofDigits 10 digits)) := by
  refine ⟨?_, hhost.inner_append hdigits⟩
  rw [hhost.readServer_eq, readPort_digits hne hdigits, if_neg (Nat.not_lt.2 hfits)]
  rfl

theorem IsHostBeforePort.isServerText_natText (hhost : IsHostBeforePort cs h) (hn : n ≤ 65535) :
    IsServerText (cs ++ ':' :: Decimal.natText n) h (some n) := by
  have hvalue : Decimal.ofDigits 10 (Decimal.natText n) = n :=
    Decimal.ofDigits_toDigits Decimal.isBase_ten n
  have hdigits : ∀ c ∈ Decimal.natText n, Decimal.isDigit 10 c = true :=
    fun _ hc => Decimal.isDigit_of_mem_toDigits Decimal.isBase_ten hc
  have hne : Decimal.natText n ≠ [] := Nat.toDigits_ne_nil
  have hserver := hhost.isServerText hne hdigits (hvalue.symm ▸ hn)
  rwa [hvalue] at hserver

end Port

/-- An authority with credentials is read part by part. -/
theorem Authority.read_append {userinfo server : List Char} {port : Option Nat}
    (hserver : IsServerText server h port) (last : Bool) :
    Authority.read false none last (userinfo ++ '@' :: server) =
      .ok (⟨(readUserinfo userinfo).1, (readUserinfo userinfo).2, some h, port⟩, []) := by
  have hat : '@' ∉ server := fun hmem => (hserver.inner '@' hmem).2.1 rfl
  have hne : server.isEmpty = false := by
    rw [List.isEmpty_eq_false_iff]
    rintro rfl
    cases hserver.read
  rw [Authority.read, Text.cutLast?_append_cons _ hat]
  simp only [Option.getD_some, hserver.read, Outcome.ok_bind, hne, Option.isNone_some,
    Bool.and_false, Bool.false_and, Bool.false_eq_true, if_false]
  rfl

/-- An authority whose server is not read is not read either. -/
theorem Authority.read_append_error {userinfo server : List Char} {e : ParseError}
    (hat : '@' ∉ server) (hne : server ≠ [])
    (hserver : Authority.readServer false none server = .error e) (last : Bool) :
    Authority.read false none last (userinfo ++ '@' :: server) = .error e := by
  have hempty : server.isEmpty = false := List.isEmpty_eq_false_iff.2 hne
  rw [Authority.read, Text.cutLast?_append_cons _ hat]
  simp only [hserver, hempty, Bool.and_false, Bool.false_and, Bool.false_eq_true, if_false]
  rfl

/-- An authority with a user name is read as its server is, but the server needs a host. -/
theorem Authority.read_named {userinfo server : List Char} (hat : '@' ∉ server)
    (huser : (readUserinfo userinfo).1 ≠ []) (last : Bool) :
    Authority.read false none last (userinfo ++ '@' :: server) =
      readServer false none server >>= fun (host, port, more) =>
        if host.isNone then .error .emptyHost
        else .ok (⟨(readUserinfo userinfo).1, (readUserinfo userinfo).2, host, port⟩, more) := by
  have hne : userinfo ≠ [] := by
    rintro rfl
    exact huser rfl
  rw [Authority.read, Text.cutLast?_append_cons _ hat]
  simp only [Option.getD_some, Option.some.injEq, hne, decide_false, Bool.false_and,
    Bool.false_eq_true, if_false]
  cases readServer false none server with
  | error e => rfl
  | ok found =>
      obtain ⟨host, port, more⟩ := found
      cases host with
      | some h => rfl
      | none =>
          have hgiven : (!(readUserinfo userinfo).1.isEmpty) = true := by
            rw [List.isEmpty_eq_false_iff.2 huser, Bool.not_false]
          simp only [Outcome.ok_bind, hgiven, Bool.true_or, Bool.and_true, Option.isNone_none,
            if_true]
          rfl

/-- What holds no character that is forbidden in a host is a host, if it is anything. -/
theorem Authority.exists_readHost {cs : List Char} (h : ∀ c ∈ cs, Host.isForbidden c = false) :
    ∃ host, Authority.readHost false cs = .ok host := by
  rw [readHost, if_neg Bool.false_ne_true]
  cases cs with
  | nil => exact ⟨none, rfl⟩
  | cons c rest =>
      have hany : (c :: rest).any Host.isForbidden = false := by
        rw [List.any_eq_false]
        intro d hd
        rw [h d hd]
        exact Bool.false_ne_true
      have hbracket : c ≠ '[' := by
        rintro rfl
        exact absurd (h '[' List.mem_cons_self) (by decide)
      have hread : Host.readOpaque (c :: rest) =
          .ok (.name (String.ofList (Text.Percent.encode Escaped.always (c :: rest)))) := by
        unfold Host.readOpaque
        split
        · rename_i heq
          exact absurd (List.cons.inj heq).1 hbracket
        · rw [hany]
          rfl
      rw [hread]
      exact ⟨_, rfl⟩

/-- An authority of such characters only names a host, and neither a user nor a port. -/
theorem Authority.exists_read {cs : List Char} (h : ∀ c ∈ cs, Host.isForbidden c = false)
    (last : Bool) :
    ∃ host, Authority.read false none last cs = .ok (⟨[], none, host, none⟩, []) := by
  have hmark {mark : Char} (hmark : Host.isForbidden mark = true) : mark ∉ cs := by
    intro hmem
    rw [h mark hmem] at hmark
    cases hmark
  have htake : takeHost false cs = (cs, []) := by
    have hinner : ∀ c ∈ cs, c ≠ ':' ∧ c ≠ '[' := by
      intro c hc
      constructor
      · rintro rfl
        exact hmark (by decide) hc
      · rintro rfl
        exact hmark (by decide) hc
    have happend : takeHost false (cs ++ []) = (cs, []) := takeHost_of_not_mem hinner nofun
    rwa [List.append_nil] at happend
  obtain ⟨host, hhost⟩ := exists_readHost h
  have hserver : readServer false none cs = .ok (host, none, []) := by
    rw [readServer, htake]
    simp only [hhost, Outcome.ok_bind]
    rfl
  refine ⟨host, ?_⟩
  rw [Authority.read, Text.cutLast?_eq_none (hmark (by decide))]
  have hempty : readUserinfo [] = ([], none) := rfl
  simp only [Option.getD_none, hempty, hserver, Outcome.ok_bind, List.isEmpty_nil, Bool.not_true,
    Option.isSome_none, Bool.or_false, Bool.and_false, Bool.false_eq_true, if_false, reduceCtorEq,
    decide_false, Bool.false_and]
  rfl

/-- A character that credentials do not escape does not end them. -/
theorem inner_of_inUserinfo {c : Char} (h : Escaped.inUserinfo c = false) :
    0x20 < c.toNat ∧ endsAuthority false c = false := by
  refine ⟨(isGraphic_of_inPath (inPath_of_inUserinfo h)).1, ?_⟩
  rw [Bool.eq_false_iff]
  intro hend
  simp only [endsAuthority, Bool.false_and, Bool.or_false, Bool.or_eq_true,
    decide_eq_true_iff] at hend
  rcases hend with (rfl | rfl) | rfl <;> exact absurd h (by decide)

theorem Authority.mem_userinfoText (ha : a.IsNormal) {c : Char} (hc : c ∈ a.userinfoText) :
    0x20 < c.toNat ∧ endsAuthority false c = false := by
  rw [Authority.userinfoText] at hc
  split at hc
  · rename_i password hpassword
    rw [List.mem_append, List.mem_cons] at hc
    rcases hc with hc | rfl | hc
    · exact inner_of_inUserinfo (ha.username c hc)
    · decide
    · exact inner_of_inUserinfo ((ha.password password hpassword).2 c hc)
  · exact inner_of_inUserinfo (ha.username c hc)

theorem Authority.isGraphic_of_mem_userinfoText (ha : a.IsNormal) {c : Char}
    (hc : c ∈ a.userinfoText) : IsGraphic c := by
  have hpart {d : Char} (hd : Escaped.inUserinfo d = false) : IsGraphic d :=
    isGraphic_of_inPath (inPath_of_inUserinfo hd)
  rw [Authority.userinfoText] at hc
  split at hc
  · rename_i password hpassword
    rw [List.mem_append, List.mem_cons] at hc
    rcases hc with hc | rfl | hc
    · exact hpart (ha.username c hc)
    · decide
    · exact hpart ((ha.password password hpassword).2 c hc)
  · exact hpart (ha.username c hc)

end Authority

/-- An optional part with the mark that goes before it. -/
def marked (mark : Char) (part : Option String) : List Char :=
  match part with
  | some text => mark :: text.toList
  | none => []

/-- The path, the query and the fragment of a URL as they stand in its text. -/
def tailText (url : Url) : List Char :=
  url.path.toList ++ marked '?' url.query ++ marked '#' url.fragment

theorem marked_eq_led (mark : Char) (part : Option String) :
    marked mark part = Text.led mark (part.map String.toList) := by
  cases part <;> rfl

theorem head?_marked {mark : Char} {part : Option String} {c : Char}
    (h : (marked mark part).head? = some c) : c = mark :=
  Text.head?_led (marked_eq_led mark part ▸ h)

theorem mem_marked {mark : Char} {part : Option String} {c : Char} (h : c ∈ marked mark part) :
    c = mark ∨ ∃ text, part = some text ∧ c ∈ text.toList := by
  cases part with
  | none => cases h
  | some text => exact (List.mem_cons.1 h).imp id fun hc => ⟨text, rfl, hc⟩

/-- What follows an authority is nothing, or it starts with a character that ends one. -/
theorem ends_of_head?_marked {path : List Char} {query fragment : Option String} {c : Char}
    (hpath : Path.IsNormal path)
    (hc : (path ++ marked '?' query ++ marked '#' fragment).head? = some c) :
    endsAuthority false c = true ∧ 0x20 < c.toNat := by
  rw [List.head?_append, List.head?_append, Option.or_assoc] at hc
  rcases Option.or_eq_some_iff.1 hc with hc | ⟨-, hc⟩
  · obtain rfl := hpath.head? hc
    decide
  rcases Option.or_eq_some_iff.1 hc with hc | ⟨-, hc⟩
  · obtain rfl := head?_marked hc
    decide
  · obtain rfl := head?_marked hc
    decide

/-- An optional part in which nothing is left to escape is kept as it is. -/
theorem map_encode_eq_self {escaped : Char → Bool} {part : Option String}
    (h : ∀ text, part = some text → ∀ c ∈ text.toList, escaped c = false) :
    (part.map String.toList).map (fun cs => String.ofList (Text.Percent.encode escaped cs)) =
      part := by
  cases part with
  | none => rfl
  | some text =>
      rw [Option.map_some, Option.map_some, Text.Percent.encode_eq_self (h text rfl),
        String.ofList_toList]

/-- A path, a query and a fragment are told apart by their marks, if the path holds neither mark and
the query not that of the fragment. -/
theorem cutTail_led {path : List Char} {query : Option (List Char)}
    (hpath : '?' ∉ path ∧ '#' ∉ path) (hquery : ∀ q, query = some q → '#' ∉ q)
    (fragment : Option (List Char)) :
    cutTail (path ++ Text.led '?' query ++ Text.led '#' fragment) = (path, query, fragment) := by
  have hfront : '#' ∉ path ++ Text.led '?' query := by
    rw [List.mem_append, not_or]
    refine ⟨hpath.2, ?_⟩
    cases query with
    | none => exact List.not_mem_nil
    | some q => exact List.not_mem_cons_of_ne_of_not_mem (by decide) (hquery q rfl)
  rw [cutTail, Text.cutOption_led hfront]
  simp only [Text.cutOption_led hpath.1]

section Tail

variable {url : Url}

theorem cutTail_tailText (hurl : url.IsNormal) :
    cutTail url.tailText =
      (url.path.toList, url.query.map String.toList, url.fragment.map String.toList) := by
  have hquery : ∀ q, url.query.map String.toList = some q → '#' ∉ q := by
    intro q hq hmem
    obtain ⟨text, htext, rfl⟩ := Option.map_eq_some_iff.1 hq
    exact absurd (hurl.query text htext '#' hmem) (by decide)
  rw [tailText, marked_eq_led, marked_eq_led]
  exact cutTail_led hurl.path.marks_not_mem hquery _

theorem mem_tailText (hurl : url.IsNormal) {c : Char} (hc : c ∈ url.tailText) :
    IsGraphic c := by
  rw [tailText, List.mem_append, List.mem_append] at hc
  rcases hc with (hc | hc) | hc
  · exact isGraphic_of_inPath (hurl.path.escaped c hc)
  · rcases mem_marked hc with rfl | ⟨q, hq, hc⟩
    · decide
    · exact isGraphic_of_inQuery (hurl.query q hq c hc)
  · rcases mem_marked hc with rfl | ⟨f, hf, hc⟩
    · decide
    · exact isGraphic_of_inFragment (hurl.fragment f hf c hc)

theorem served_eq_self (hurl : url.IsNormal) :
    served url.scheme.toList url.authority url.path.toList (url.query.map String.toList)
      (url.fragment.map String.toList) = url := by
  have hquery := map_encode_eq_self hurl.query
  have hfragment := map_encode_eq_self hurl.fragment
  have hauthority := withAuthority_authority url
  simp only [served, withTail, hquery, hfragment, hurl.path.fixed, String.ofList_toList]
  exact congrArg
    (fun u : Url => { u with path := url.path, query := url.query, fragment := url.fragment })
    hauthority

end Tail

/-- A scheme in lower case that gives what follows it no meaning of its own. -/
structure IsOpaqueScheme (scheme : String) : Prop where
  letter : ∃ c, scheme.toList.head? = some c ∧ c.isAlpha = true
  chars : ∀ c ∈ scheme.toList, isSchemeChar c = true ∧ Text.lowerAscii c = c
  kind : SchemeKind.ofScheme scheme.toList = .other

theorem IsOpaqueScheme.map_lowerAscii {scheme : String} (h : IsOpaqueScheme scheme) :
    scheme.toList.map Text.lowerAscii = scheme.toList :=
  Text.map_eq_self fun c hc => (h.chars c hc).2

theorem isSchemeChar_lowerAscii (c : Char) : isSchemeChar (Text.lowerAscii c) = isSchemeChar c :=
  Text.apply_lowerAscii (by decide) c

theorem isAlpha_lowerAscii (c : Char) : (Text.lowerAscii c).isAlpha = c.isAlpha :=
  Text.apply_lowerAscii (f := fun c => c.isAlpha) (by decide) c

/-- A scheme as it may be written: a letter, and more letters, digits and a few marks. -/
structure IsScheme (start : List Char) : Prop where
  letter : ∃ c, start.head? = some c ∧ c.isAlpha = true
  chars : ∀ c ∈ start, isSchemeChar c = true

/-- A text is a scheme in letters of either case. -/
theorem isScheme_map_lowerAscii {start : List Char} :
    IsScheme (start.map Text.lowerAscii) ↔ IsScheme start := by
  have hletter : (∃ c, (start.map Text.lowerAscii).head? = some c ∧ c.isAlpha = true) ↔
      ∃ c, start.head? = some c ∧ c.isAlpha = true := by
    simp only [List.head?_map, Option.map_eq_some_iff]
    constructor
    · rintro ⟨-, ⟨c, hc, rfl⟩, halpha⟩
      exact ⟨c, hc, (isAlpha_lowerAscii c).symm.trans halpha⟩
    · rintro ⟨c, hc, halpha⟩
      exact ⟨_, ⟨c, hc, rfl⟩, (isAlpha_lowerAscii c).trans halpha⟩
  have hchars : (∀ c ∈ start.map Text.lowerAscii, isSchemeChar c = true) ↔
      ∀ c ∈ start, isSchemeChar c = true := by
    simp only [List.forall_mem_map, isSchemeChar_lowerAscii]
  exact ⟨fun h => ⟨hletter.1 h.letter, hchars.1 h.chars⟩,
    fun h => ⟨hletter.2 h.letter, hchars.2 h.chars⟩⟩

/-- A scheme is read in lower case. -/
theorem IsScheme.cutScheme? {start : List Char} (h : IsScheme start) (rest : List Char) :
    cutScheme? (start ++ ':' :: rest) = some (start.map Text.lowerAscii, rest) := by
  have hstop : ∀ d, (':' :: rest).head? = some d → isSchemeChar d = false := by
    intro d hd
    obtain rfl := Option.some.inj hd
    decide
  have htake := Text.takeWhile_append_eq h.chars hstop
  have hdrop := Text.dropWhile_append_eq h.chars hstop
  obtain ⟨c, hhead, halpha⟩ := h.letter
  obtain ⟨cs, rfl⟩ := List.head?_eq_some_iff.1 hhead
  rw [List.cons_append] at htake hdrop ⊢
  rw [Url.cutScheme?, hdrop, htake, halpha]
  rfl

theorem IsOpaqueScheme.isScheme {scheme : String} (h : IsOpaqueScheme scheme) {start : List Char}
    (hstart : start.map Text.lowerAscii = scheme.toList) : IsScheme start := by
  rw [← isScheme_map_lowerAscii, hstart]
  exact ⟨h.letter, fun c hc => (h.chars c hc).1⟩

/-- A scheme is read whichever case its letters are in. -/
theorem cutScheme?_spelled {scheme : String} (hscheme : IsOpaqueScheme scheme) {start : List Char}
    (hstart : start.map Text.lowerAscii = scheme.toList) (rest : List Char) :
    cutScheme? (start ++ ':' :: rest) = some (scheme.toList, rest) := by
  rw [(hscheme.isScheme hstart).cutScheme?, hstart]

/-- Behind a scheme without a meaning of its own and two slashes, whatever follows is read from an
authority on. -/
theorem read_spelled {scheme : String} (hscheme : IsOpaqueScheme scheme) {start : List Char}
    (hstart : start.map Text.lowerAscii = scheme.toList) (rest : List Char) :
    Url.read (String.ofList (start ++ "://".toList ++ rest)) =
      readServed scheme.toList none (cleanEnd rest) := by
  have habove : ∀ c ∈ start ++ "://".toList, 0x20 < c.toNat := by
    have hslashes : ∀ d ∈ "://".toList, 0x20 < d.toNat := Text.forall_of_all (by decide)
    intro c hc
    rcases List.mem_append.1 hc with hc | hc
    · exact (isGraphic_of_isSchemeChar ((hscheme.isScheme hstart).chars c hc)).1
    · exact hslashes c hc
  have hcut : cutScheme? (start ++ "://".toList ++ cleanEnd rest) =
      some (scheme.toList, '/' :: '/' :: cleanEnd rest) := by
    rw [List.append_assoc]
    exact cutScheme?_spelled hscheme hstart _
  rw [Url.read, String.toList_ofList, clean_append (by simp) habove, hcut]
  simp only [hscheme.kind]

/-- The URL with given credentials and a given server, and with what stands behind them. -/
def servedFrom (scheme : String) (userinfo : List Char) (host : Host) (port : Option Nat)
    (tail : List Char) : Url :=
  let (username, password) := Authority.readUserinfo userinfo
  let (path, query, fragment) := cutTail (cleanEnd tail)
  served scheme.toList ⟨username, password, some host, port⟩ path query fragment

/-- An authority ends where something starts that ends one. -/
theorem takeWhile_authority {front tail : List Char}
    (hfront : ∀ c ∈ front, 0x20 < c.toNat ∧ endsAuthority false c = false)
    (htail : ∀ c, tail.head? = some c → endsAuthority false c = true) :
    (front ++ tail).takeWhile (!endsAuthority false ·) = front ∧
      (front ++ tail).dropWhile (!endsAuthority false ·) = tail := by
  have hgo : ∀ c ∈ front, (!endsAuthority false c) = true := by
    intro c hc
    rw [(hfront c hc).2]
    rfl
  have hstop : ∀ c, tail.head? = some c → (!endsAuthority false c) = false := by
    intro c hc
    rw [htail c hc]
    rfl
  exact ⟨Text.takeWhile_append_eq hgo hstop, Text.dropWhile_append_eq hgo hstop⟩

/-- An authority is read from the text before the tail. -/
theorem read_authorityText {scheme : String} {front tail : List Char}
    (hscheme : IsOpaqueScheme scheme)
    (hfront : ∀ c ∈ front, 0x20 < c.toNat ∧ endsAuthority false c = false)
    (htail : ∀ c, tail.head? = some c → endsAuthority false c = true ∧ 0x20 < c.toNat) :
    Url.read (String.ofList (scheme.toList ++ "://".toList ++ front ++ tail)) =
      Authority.read false none (cleanEnd tail).isEmpty front >>= fun (a, more) =>
        let (path, query, fragment) := cutTail (more ++ cleanEnd tail)
        .ok (served scheme.toList a path query fragment) := by
  have hend : ∀ c, (cleanEnd tail).head? = some c → endsAuthority false c = true := by
    intro c hc
    cases tail with
    | nil => cases hc
    | cons d tail =>
        have hd := htail d rfl
        rw [head?_cleanEnd hd.2 hc, hd.1]
  obtain ⟨htake, hdrop⟩ := takeWhile_authority hfront hend
  rw [List.append_assoc, read_spelled hscheme hscheme.map_lowerAscii,
    cleanEnd_append fun c hc => (hfront c hc).1, readServed_none, htake, hdrop]

/-- Neither credentials nor a server end the authority in which they stand. -/
theorem inner_append {userinfo server : List Char}
    (huser : ∀ c ∈ userinfo, 0x20 < c.toNat ∧ endsAuthority false c = false)
    (hserver : ∀ c ∈ server, 0x20 < c.toNat ∧ c ≠ '@' ∧ endsAuthority false c = false) :
    ∀ c ∈ userinfo ++ '@' :: server, 0x20 < c.toNat ∧ endsAuthority false c = false := by
  intro c hc
  rw [List.mem_append, List.mem_cons] at hc
  rcases hc with hc | rfl | hc
  · exact huser c hc
  · decide
  · exact ⟨(hserver c hc).1, (hserver c hc).2.2⟩

/-- A text with a scheme, credentials and a server is read part by part, whatever stands behind
them. -/
theorem read_servedText {scheme : String} {userinfo server tail : List Char} {host : Host}
    {port : Option Nat} (hscheme : IsOpaqueScheme scheme)
    (huser : ∀ c ∈ userinfo, 0x20 < c.toNat ∧ endsAuthority false c = false)
    (hserver : IsServerText server host port)
    (htail : ∀ c, tail.head? = some c → endsAuthority false c = true ∧ 0x20 < c.toNat) :
    Url.read (String.ofList
        (scheme.toList ++ "://".toList ++ (userinfo ++ '@' :: server) ++ tail)) =
      .ok (servedFrom scheme userinfo host port tail) := by
  rw [read_authorityText hscheme (inner_append huser hserver.inner) htail,
    Authority.read_append hserver, Outcome.ok_bind]
  rfl

/-- The text of a URL that names a server, whose host is given as it is to be written. -/
def textWithHost (url : Url) (host : List Char) (port : Nat) : List Char :=
  url.scheme.toList ++ "://".toList ++
    (url.authority.userinfoText ++ '@' :: (host ++ ':' :: Decimal.natText port)) ++ url.tailText

/-- A normal URL reads back from its text. -/
theorem read_textWithHost {url : Url} {cs : List Char} {h : Host} {n : Nat}
    (hurl : url.IsNormal) (hscheme : IsOpaqueScheme url.scheme) (hw : Host.Writes cs h)
    (hhost : url.host = some h) (hport : url.port = some n) :
    Url.read (String.ofList (url.textWithHost cs n)) = .ok url := by
  have htail : ∀ c, url.tailText.head? = some c → endsAuthority false c = true ∧ 0x20 < c.toNat :=
    fun _ hc => ends_of_head?_marked hurl.path hc
  have ho := hurl.authority.host h hhost
  have hread := read_servedText hscheme (fun c hc => Authority.mem_userinfoText hurl.authority hc)
    ((hw.isHostBeforePort ho).isServerText_natText (hurl.authority.port n hport)) htail
  have hclean : cleanEnd url.tailText = url.tailText :=
    cleanEnd_eq_self fun c hc => (mem_tailText hurl hc).1
  have hserved :
      servedFrom url.scheme url.authority.userinfoText h (some n) url.tailText = url := by
    simp only [servedFrom, readUserinfo_userinfoText hurl.authority, hclean,
      cutTail_tailText hurl, ← hhost, ← hport]
    exact served_eq_self hurl
  rw [textWithHost, hread, hserved]

/-- A normal URL is written with characters that show. -/
theorem isGraphic_of_mem_textWithHost {url : Url} {cs : List Char} {h : Host} {n : Nat}
    (hurl : url.IsNormal) (hscheme : IsOpaqueScheme url.scheme) (hw : Host.Writes cs h)
    (hhost : url.host = some h) : ∀ c ∈ url.textWithHost cs n, IsGraphic c := by
  have hslashes : ∀ d ∈ "://".toList, IsGraphic d := Text.forall_of_all (by decide)
  have hdigit : ∀ d ∈ Decimal.digitChars, IsGraphic d := Text.forall_of_all (by decide)
  intro c hc
  simp only [textWithHost, List.mem_append, List.mem_cons] at hc
  rcases hc with ((hc | hc) | hc | rfl | hc | rfl | hc) | hc
  · exact isGraphic_of_isSchemeChar (hscheme.chars c hc).1
  · exact hslashes c hc
  · exact Authority.isGraphic_of_mem_userinfoText hurl.authority hc
  · decide
  · exact hw.isGraphic (hurl.authority.host h hhost) hc
  · decide
  · exact hdigit c (Decimal.mem_digitChars_of_mem_toDigits Decimal.isBase_ten hc)
  · exact mem_tailText hurl hc

end LinkSieve.Url
