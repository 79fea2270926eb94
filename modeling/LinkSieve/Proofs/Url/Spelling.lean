import LinkSieve.Proofs.Url.Delimited

/-!
# How a URL that names a host is written

A URL that names a host consists of a scheme, slashes, credentials, a host, a port, a path, a query
and a fragment, where all but the scheme and the host may be missing. Each part is told by the
characters that end it, which depend on the scheme: the web's schemes and that of files take a
backslash for a slash, and the web's take any number of slashes before the host. What is read from
such a text are its parts, each on its own, and every text from which a host is read is one.
-/

namespace LinkSieve.Url

open Text (led)

namespace SchemeKind

/-- Whether a backslash is as good as a slash. -/
def isSlashed : SchemeKind → Bool
  | .other => false
  | _ => true

/-- The port that schemes of a kind imply. -/
def implied? : SchemeKind → Option Nat
  | .web port => some port
  | _ => none

/-- The slashes that may stand before a host. -/
def TakesSlashes (kind : SchemeKind) (slashes : List Char) : Prop :=
  match kind with
  | .web _ => ∀ c ∈ slashes, c = '/' ∨ c = '\\'
  | .file => slashed slashes = "//".toList
  | .other => slashes = "//".toList

/-- But for files, a backslash is as good as a slash if a port is implied. -/
theorem isSome_implied? {kind : SchemeKind} (h : kind ≠ .file) :
    kind.implied?.isSome = kind.isSlashed := by
  cases kind with
  | web n => rfl
  | file => exact absurd rfl h
  | other => rfl

end SchemeKind

/-- The parts of a text that is to be read as a URL. -/
structure Spelling where
  scheme : List Char
  slashes : List Char
  userinfo : Option (List Char)
  host : List Char
  port : Option (List Char)
  path : List Char
  query : Option (List Char)
  fragment : Option (List Char)

/-- Credentials, which may be missing, with the at sign behind them. -/
def credentialsText (userinfo : Option (List Char)) : List Char :=
  match userinfo with
  | some cs => cs ++ ['@']
  | none => []

/-- A host as it may be written: without colons, or in square brackets. -/
def IsHostSpelling (cs : List Char) : Prop :=
  (∀ c ∈ cs, c ≠ ':' ∧ c ≠ '[') ∨ ∃ inner, cs = '[' :: (inner ++ [']']) ∧ ']' ∉ inner

namespace Spelling

/-- The kind of the scheme. -/
def kind (s : Spelling) : SchemeKind :=
  .ofScheme (s.scheme.map Text.lowerAscii)

/-- Whether a character ends the host, or the port after it. -/
def ends (s : Spelling) (c : Char) : Bool :=
  endsAuthority s.kind.isSlashed c

/-- The credentials with the at sign behind them. -/
def credentials (s : Spelling) : List Char :=
  credentialsText s.userinfo

/-- The host and the port. -/
def server (s : Spelling) : List Char :=
  s.host ++ led ':' s.port

/-- The query and the fragment. -/
def endText (s : Spelling) : List Char :=
  led '?' s.query ++ led '#' s.fragment

/-- The text of a spelling. -/
def text (s : Spelling) : List Char :=
  s.scheme ++ ':' :: (s.slashes ++ (s.credentials ++ (s.server ++ (s.path ++ s.endText))))

/-- A spelling without blanks and control characters. -/
structure IsShown (s : Spelling) : Prop where
  scheme : ∀ c ∈ s.scheme, 0x20 < c.toNat
  slashes : ∀ c ∈ s.slashes, 0x20 < c.toNat
  userinfo : ∀ cs, s.userinfo = some cs → ∀ c ∈ cs, 0x20 < c.toNat
  host : ∀ c ∈ s.host, 0x20 < c.toNat
  port : ∀ cs, s.port = some cs → ∀ c ∈ cs, 0x20 < c.toNat
  path : ∀ c ∈ s.path, 0x20 < c.toNat
  query : ∀ cs, s.query = some cs → ∀ c ∈ cs, 0x20 < c.toNat
  fragment : ∀ cs, s.fragment = some cs → ∀ c ∈ cs, 0x20 < c.toNat

/-- A spelling whose parts end where they are to end. A path starts with a slash; under a scheme for
which a backslash is none, it may start with one behind a port. -/
structure IsWellFormed (s : Spelling) : Prop where
  shown : s.IsShown
  scheme : IsScheme s.scheme
  slashes : s.kind.TakesSlashes s.slashes
  userinfo : ∀ cs, s.userinfo = some cs → s.kind ≠ .file ∧ ∀ c ∈ cs, s.ends c = false
  host_ne_nil : s.host ≠ []
  host : IsHostSpelling s.host ∧ ∀ c ∈ s.host, c ≠ '@' ∧ s.ends c = false
  port : ∀ digits, s.port = some digits →
    s.kind ≠ .file ∧ ∀ c ∈ digits, Decimal.isDigit 10 c = true
  path_head : ∀ c, s.path.head? = some c → s.ends c = true ∨ c = '\\' ∧ s.port.isSome = true
  path : '?' ∉ s.path ∧ '#' ∉ s.path ∧ '@' ∉ s.path.takeWhile (!s.ends ·)
  query : ∀ q, s.query = some q → '#' ∉ q

/-- What the host of a spelling is read as. -/
def readHost (s : Spelling) : Except ParseError Host :=
  if s.kind.isSlashed then Host.readWeb s.host else Host.readOpaque s.host

/-- The port that digits stand for, if it is one and the scheme does not imply it. -/
def portOf (implied : Option Nat) (digits : List Char) : Except ParseError (Option Nat) :=
  if 65535 < Decimal.ofDigits 10 digits then .error .badPort
  else .ok (if digits.isEmpty || some (Decimal.ofDigits 10 digits) = implied then none
    else some (Decimal.ofDigits 10 digits))

/-- What the port of a spelling is read as. -/
def readPort (s : Spelling) : Except ParseError (Option Nat) :=
  match s.port with
  | some digits => portOf s.kind.implied? digits
  | none => .ok none

/-- The path that the path of a spelling stands for. -/
def readPath (s : Spelling) : List Char :=
  match s.kind with
  | .web _ => webPath s.path
  | .file => Path.normalizeFile ((slashed s.path).drop 1)
  | .other => otherPath s.path

/-- The URL of the parts of a spelling. -/
def url (s : Spelling) (host : Host) (port : Option Nat) : Url :=
  let (username, password) := Authority.readUserinfo (s.userinfo.getD [])
  let url : Url :=
    { scheme := String.ofList (s.scheme.map Text.lowerAscii)
      path := String.ofList s.readPath }
  (url.withAuthority ⟨username, password, some host, port⟩).withTail s.kind.isSlashed
    s.query s.fragment

/-- A host and a port that are read from a spelling. The host of a file is none if it names a drive
or the machine itself, or if the path names a drive. -/
structure Names (s : Spelling) (h : Host) (n : Option Nat) : Prop where
  host : s.readHost = .ok h
  port : s.readPort = .ok n
  share : s.kind = .file → Path.isDrive s.host = false ∧ h ≠ .name "localhost" ∧
    Path.startsWithDrive ((slashed s.path).drop 1) = false

end Spelling

theorem endsAuthority_of_not_mem {web : Bool} {c : Char} (h : c ∉ "/?#\\".toList) :
    endsAuthority web c = false := by
  have hne : ∀ d ∈ "/?#\\".toList, c ≠ d := by
    rintro d hd rfl
    exact h hd
  simp [endsAuthority, hne '/' (by decide), hne '?' (by decide), hne '#' (by decide),
    hne '\\' (by decide)]

section Authority

variable {web last : Bool} {implied : Option Nat} {host slack : List Char}

theorem IsHostSpelling.takeHost (h : IsHostSpelling host) {rest : List Char}
    (hrest : ∀ c, rest.head? = some c → c = ':') :
    Authority.takeHost false (host ++ rest) = (host, rest) := by
  rcases h with hname | ⟨inner, rfl, hinner⟩
  · exact takeHost_of_not_mem hname hrest
  · have hclosed := takeHost_bracketed hinner hrest
    simp [Authority.takeHost, hclosed]

theorem readHost_eq (hne : host ≠ []) : Authority.readHost web host =
    (if web then Host.readWeb host else Host.readOpaque host).map some := by
  have hempty : host.isEmpty = false := List.isEmpty_eq_false_iff.2 hne
  cases web <;> simp [Authority.readHost, hempty]

/-- Digits are read up to the backslash of a path that follows them. -/
theorem readPort_append {digits : List Char} (hdigits : ∀ c ∈ digits, Decimal.isDigit 10 c = true)
    (hslack : ∀ c, slack.head? = some c → c = '\\') :
    Authority.readPort implied (digits ++ slack) =
      (Spelling.portOf implied digits).map fun port => (port, slack) := by
  have hstop : ∀ c, slack.head? = some c → Decimal.isDigit 10 c = false := by
    intro c hc
    rw [hslack c hc]
    decide
  have hafter : (!(slack.isEmpty || decide (slack.head? = some '\\'))) = false := by
    cases slack with
    | nil => rfl
    | cons c slack => simp [hslack c rfl]
  rw [Authority.readPort, Text.takeWhile_append_eq hdigits hstop,
    Text.dropWhile_append_eq hdigits hstop, Spelling.portOf]
  simp only [hafter, Bool.or_false, decide_eq_true_eq]
  split <;> rfl

end Authority

theorem slashed_eq_self {cs : List Char} (h : '\\' ∉ cs) : slashed cs = cs := by
  apply Text.map_eq_self
  intro c hc
  rw [if_neg]
  rintro rfl
  exact h hc

theorem slashed_append (as bs : List Char) : slashed (as ++ bs) = slashed as ++ slashed bs :=
  List.map_append

/-- The host of a file stands up to the next slash. -/
theorem readFileHost_append {host path : List Char} (hne : host ≠ []) (hhost : '/' ∉ host)
    (hpath : ∀ c, path.head? = some c → c = '/') :
    readFileHost ('/' :: '/' :: (host ++ path)) =
      if Path.isDrive host then .ok (none, host ++ path)
      else (Host.readWeb host).map fun h =>
        (if h = .name "localhost" then none else some h, path.drop 1) := by
  have hgo : ∀ c ∈ host, decide (c ≠ '/') = true := by
    intro c hc
    rw [decide_eq_true_iff]
    rintro rfl
    exact hhost hc
  have hstop : ∀ c, path.head? = some c → decide (c ≠ '/') = false := by
    intro c hc
    rw [hpath c hc]
    decide
  have hempty : host.isEmpty = false := List.isEmpty_eq_false_iff.2 hne
  simp only [readFileHost, Text.takeWhile_append_eq hgo hstop, Text.dropWhile_append_eq hgo hstop,
    hempty, Bool.false_eq_true, if_false]
  split
  · rfl
  · split
    · rename_i hread
      rw [hread]
      rfl
    · rename_i h hlocal hread
      rw [hread, Except.map, if_neg hlocal]
    · rename_i e hread
      rw [hread]
      rfl

namespace Spelling

section Reading

variable {s : Spelling}

theorem isShown_iff : s.IsShown ↔ ∀ c ∈ s.text, 0x20 < c.toNat := by
  have hled (mark : Char) (hmark : 0x20 < mark.toNat) (part : Option (List Char)) :
      (∀ c ∈ led mark part, 0x20 < c.toNat) ↔ ∀ cs, part = some cs → ∀ c ∈ cs, 0x20 < c.toNat := by
    cases part with
    | none => simp [led]
    | some cs => simp [led, hmark]
  have huser : (∀ c ∈ s.credentials, 0x20 < c.toNat) ↔
      ∀ cs, s.userinfo = some cs → ∀ c ∈ cs, 0x20 < c.toNat := by
    rw [credentials]
    cases s.userinfo with
    | none => simp [credentialsText]
    | some cs =>
        have hat : 0x20 < '@'.toNat := by decide
        simp only [credentialsText, List.forall_mem_append, List.forall_mem_singleton, hat,
          and_true, Option.some.injEq, forall_eq']
  have hcolon : 0x20 < ':'.toNat := by decide
  have hport := hled ':' (by decide) s.port
  have hquery := hled '?' (by decide) s.query
  have hfragment := hled '#' (by decide) s.fragment
  simp only [text, server, endText, List.forall_mem_append, List.forall_mem_cons, hcolon, true_and,
    huser, hport, hquery, hfragment]
  constructor
  · rintro ⟨h1, h2, h3, h4, h5, h6, h7, h8⟩
    exact ⟨h1, h2, h3, ⟨h4, h5⟩, h6, h7, h8⟩
  · rintro ⟨h1, h2, h3, ⟨h4, h5⟩, h6, h7, h8⟩
    exact ⟨h1, h2, h3, h4, h5, h6, h7, h8⟩

/-- What of a path belongs to the stretch that is read for the host and the port. -/
def slack (s : Spelling) : List Char :=
  s.path.takeWhile (!s.ends ·)

/-- A path starts with a slash of either kind. -/
theorem IsWellFormed.slash_of_head? (hs : s.IsWellFormed) {c : Char} (hc : s.path.head? = some c) :
    c = '/' ∨ c = '\\' := by
  rcases hs.path_head c hc with hends | ⟨hback, -⟩
  · have hmem := List.mem_of_mem_head? hc
    have hmark : c ∈ "/?#\\".toList :=
      Decidable.of_not_not fun hno => by
        rw [ends, endsAuthority_of_not_mem hno] at hends
        cases hends
    have hall : ∀ d ∈ "/?#\\".toList, d = '/' ∨ d = '?' ∨ d = '#' ∨ d = '\\' :=
      Text.forall_of_all (by decide)
    rcases hall c hmark with h | rfl | rfl | h
    · exact .inl h
    · exact absurd hmem hs.path.1
    · exact absurd hmem hs.path.2.1
    · exact .inr h
  · exact .inr hback

theorem IsWellFormed.head?_slack (hs : s.IsWellFormed) {c : Char} (hc : s.slack.head? = some c) :
    c = '\\' ∧ s.port.isSome = true := by
  rw [slack, List.head?_takeWhile, Option.filter_eq_some_iff] at hc
  obtain ⟨hhead, hnot⟩ := hc
  rcases hs.path_head c hhead with hends | hback
  · rw [hends] at hnot
    cases hnot
  · exact hback

theorem IsWellFormed.slack_of_port (hs : s.IsWellFormed) (hport : s.port = none) :
    s.slack = [] := by
  cases hslack : s.slack with
  | nil => rfl
  | cons c rest =>
      have hsome := (hs.head?_slack (c := c) (by rw [hslack]; rfl)).2
      rw [hport] at hsome
      cases hsome

/-- The host and the port are read on their own. What of a path is left in their stretch stands
behind a port, so a host ends at a colon or there. -/
theorem IsWellFormed.readServer (hs : s.IsWellFormed) :
    Authority.readServer s.kind.isSlashed s.kind.implied? (s.server ++ s.slack) =
      s.readHost >>= fun h => s.readPort >>= fun n => .ok (some h, n, s.slack) := by
  have hstart : ∀ c, (led ':' s.port ++ s.slack).head? = some c → c = ':' := by
    intro c hc
    rw [List.head?_append] at hc
    rcases Option.or_eq_some_iff.1 hc with hc | ⟨hnone, hc⟩
    · exact Text.head?_led hc
    · obtain ⟨digits, hport⟩ := Option.isSome_iff_exists.1 (hs.head?_slack hc).2
      rw [hport] at hnone
      cases hnone
  have hhost : Authority.readHost s.kind.isSlashed s.host = s.readHost.map some :=
    readHost_eq hs.host_ne_nil
  rw [Authority.readServer, server, List.append_assoc, hs.host.1.takeHost hstart]
  simp only [hhost]
  cases s.readHost with
  | error e => rfl
  | ok h =>
      cases hport : s.port with
      | none =>
          simp only [hs.slack_of_port hport, readPort, hport]
          rfl
      | some digits =>
          have hdigits := (hs.port digits hport).2
          have hread : s.readPort = portOf s.kind.implied? digits := by rw [readPort, hport]
          simp only [led, List.cons_append, Except.map, Outcome.ok_bind, hread,
            readPort_append hdigits fun c hc => (hs.head?_slack hc).1,
            Option.isNone_some, Bool.false_eq_true, if_false]
          cases portOf s.kind.implied? digits <;> rfl

theorem IsWellFormed.at_not_mem (hs : s.IsWellFormed) : '@' ∉ s.server ++ s.slack := by
  rw [server, List.append_assoc, List.mem_append, List.mem_append]
  rintro (hmem | hmem | hmem)
  · exact (hs.host.2 _ hmem).1 rfl
  · cases hport : s.port with
    | none =>
        rw [hport] at hmem
        cases hmem
    | some digits =>
        rw [hport] at hmem
        rcases List.mem_cons.1 hmem with hmem | hmem
        · cases hmem
        · exact absurd ((hs.port digits hport).2 _ hmem) (by decide)
  · exact hs.path.2.2 hmem

/-- The stretch up to the character that ends it is read for the credentials, the host and the
port. -/
theorem IsWellFormed.readAuthority (hs : s.IsWellFormed) (last : Bool) :
    Authority.read s.kind.isSlashed s.kind.implied? last
        (s.credentials ++ (s.server ++ s.slack)) =
      s.readHost >>= fun h => s.readPort >>= fun n =>
        let (username, password) := Authority.readUserinfo (s.userinfo.getD [])
        .ok (⟨username, password, some h, n⟩, s.slack) := by
  have hne : (s.server ++ s.slack).isEmpty = false := by
    rw [server, List.append_assoc]
    exact List.isEmpty_eq_false_iff.2 (List.append_ne_nil_of_left_ne_nil hs.host_ne_nil _)
  have hserver := hs.readServer
  rw [Authority.read, credentials]
  cases s.userinfo with
  | none =>
      rw [credentialsText, List.nil_append, Text.cutLast?_eq_none hs.at_not_mem]
      simp only [hserver]
      cases s.readHost with
      | error e => rfl
      | ok h => cases s.readPort <;> rfl
  | some cs =>
      rw [credentialsText, List.append_assoc, List.singleton_append,
        Text.cutLast?_append_cons cs hs.at_not_mem]
      simp only [hne, hserver, Bool.and_false, Bool.false_and]
      cases s.readHost with
      | error e => rfl
      | ok h => cases s.readPort <;> rfl

/-- No character of the credentials, the host and the port ends them. -/
theorem IsWellFormed.inner (hs : s.IsWellFormed) :
    ∀ c ∈ s.credentials ++ s.server, s.ends c = false := by
  have hmarks : ∀ d ∈ "/?#\\".toList, d ≠ '@' ∧ d ≠ ':' ∧ Decimal.isDigit 10 d = false :=
    Text.forall_of_all (by decide)
  have hspare {c : Char} (hc : c = '@' ∨ c = ':' ∨ Decimal.isDigit 10 c = true) :
      s.ends c = false := by
    apply endsAuthority_of_not_mem
    intro hmem
    obtain ⟨hat, hcolon, hdigit⟩ := hmarks c hmem
    rcases hc with hc | hc | hc
    · exact hat hc
    · exact hcolon hc
    · rw [hdigit] at hc
      cases hc
  intro c hc
  rw [server, credentials, List.mem_append, List.mem_append] at hc
  rcases hc with hc | hc | hc
  · cases huser : s.userinfo with
    | none =>
        rw [huser] at hc
        cases hc
    | some cs =>
        rw [huser, credentialsText, List.mem_append, List.mem_singleton] at hc
        rcases hc with hc | rfl
        · exact (hs.userinfo cs huser).2 c hc
        · exact hspare (.inl rfl)
  · exact (hs.host.2 c hc).2
  · cases hport : s.port with
    | none =>
        rw [hport] at hc
        cases hc
    | some digits =>
        rw [hport] at hc
        rcases List.mem_cons.1 hc with rfl | hc
        · exact hspare (.inr (.inl rfl))
        · exact hspare (.inr (.inr ((hs.port digits hport).2 c hc)))

theorem ends_of_head?_endText {c : Char} (hc : s.endText.head? = some c) : s.ends c = true := by
  rw [endText, List.head?_append] at hc
  rcases Option.or_eq_some_iff.1 hc with hc | ⟨-, hc⟩
  · rw [Text.head?_led hc]
    simp [ends, endsAuthority]
  · rw [Text.head?_led hc]
    simp [ends, endsAuthority]

/-- What stands before the query and the fragment is found again if it holds no mark of theirs. -/
theorem IsWellFormed.cutTail (hs : s.IsWellFormed) {cs : List Char} (hcs : '?' ∉ cs ∧ '#' ∉ cs) :
    cutTail (cs ++ s.endText) = (cs, s.query, s.fragment) := by
  rw [endText, ← List.append_assoc]
  exact cutTail_led hcs hs.query s.fragment

/-- Behind the slashes, each part is read on its own. -/
theorem IsWellFormed.readServed (hs : s.IsWellFormed) (hkind : s.kind ≠ .file) :
    readServed (s.scheme.map Text.lowerAscii) s.kind.implied?
        (s.credentials ++ (s.server ++ (s.path ++ s.endText))) =
      s.readHost >>= fun h => s.readPort >>= fun n => .ok (s.url h n) := by
  have hinner : ∀ c ∈ s.credentials ++ s.server, (!s.ends c) = true := by
    intro c hc
    rw [hs.inner c hc]
    rfl
  have hend : ∀ c, s.endText.head? = some c → (!s.ends c) = false := by
    intro c hc
    rw [ends_of_head?_endText hc]
    rfl
  have htake : (s.credentials ++ (s.server ++ (s.path ++ s.endText))).takeWhile (!s.ends ·) =
      s.credentials ++ (s.server ++ s.slack) := by
    rw [← List.append_assoc, List.takeWhile_append_of_pos hinner,
      Text.takeWhile_append_left hend, List.append_assoc, slack]
  have hdrop : (s.credentials ++ (s.server ++ (s.path ++ s.endText))).dropWhile (!s.ends ·) =
      s.path.dropWhile (!s.ends ·) ++ s.endText := by
    rw [← List.append_assoc, List.dropWhile_append_of_pos hinner,
      Text.dropWhile_append_left hend]
  have hback : s.slack ++ (s.path.dropWhile (!s.ends ·) ++ s.endText) = s.path ++ s.endText := by
    rw [slack, ← List.append_assoc, List.takeWhile_append_dropWhile]
  have htail := hs.cutTail ⟨hs.path.1, hs.path.2.1⟩
  have hpath : s.readPath = if s.kind.isSlashed then webPath s.path else otherPath s.path := by
    cases h : s.kind with
    | web n => simp [readPath, h, SchemeKind.isSlashed]
    | file => exact absurd h hkind
    | other => simp [readPath, h, SchemeKind.isSlashed]
  unfold ends at htake hdrop hback
  rw [Url.readServed, SchemeKind.isSome_implied? hkind]
  simp only [htake, hdrop, hs.readAuthority]
  cases s.readHost with
  | error e => rfl
  | ok h =>
      cases s.readPort with
      | error e => rfl
      | ok n =>
          simp only [Outcome.ok_bind, hback, htail, url, hpath]
          rfl

/-- The slashes before a host end where they are to end. -/
theorem IsWellFormed.head?_credentials (hs : s.IsWellFormed) {rest : List Char} {c : Char}
    (hc : (s.credentials ++ (s.server ++ rest)).head? = some c) : s.ends c = false := by
  have hne : s.credentials ++ s.server ≠ [] :=
    List.append_ne_nil_of_right_ne_nil _ (List.append_ne_nil_of_left_ne_nil hs.host_ne_nil _)
  rw [← List.append_assoc, List.head?_append] at hc
  rcases Option.or_eq_some_iff.1 hc with hc | ⟨hnone, -⟩
  · exact hs.inner c (List.mem_of_mem_head? hc)
  · exact absurd (List.head?_eq_none_iff.1 hnone) hne

/-- Under the scheme of files neither credentials nor a port stand in a text. -/
theorem IsWellFormed.of_file (hs : s.IsWellFormed) (hkind : s.kind = .file) :
    s.credentials = [] ∧ s.server = s.host ∧ s.readPort = .ok none ∧ s.userinfo = none := by
  have huser : s.userinfo = none := by
    cases h : s.userinfo with
    | none => rfl
    | some cs => exact absurd hkind (hs.userinfo cs h).1
  have hport : s.port = none := by
    cases h : s.port with
    | none => rfl
    | some digits => exact absurd hkind (hs.port digits h).1
  rw [credentials, server, readPort, huser, hport]
  exact ⟨rfl, List.append_nil _, rfl, rfl⟩

/-- Behind two slashes the host and the path of a file stand up to the query. -/
theorem IsWellFormed.slashed_file (hs : s.IsWellFormed) (hkind : s.kind = .file) :
    ('?' ∉ s.slashes ++ (s.host ++ s.path) ∧ '#' ∉ s.slashes ++ (s.host ++ s.path)) ∧
      slashed (s.slashes ++ (s.host ++ s.path)) = '/' :: '/' :: (s.host ++ slashed s.path) ∧
      '/' ∉ s.host ∧ ∀ c, (slashed s.path).head? = some c → c = '/' := by
  have hslashes : slashed s.slashes = "//".toList := by
    have htakes := hs.slashes
    rwa [hkind] at htakes
  have hno {d : Char} (hd : d ∈ "/?#\\".toList) : d ∉ s.host := by
    have hends : ∀ d ∈ "/?#\\".toList, endsAuthority true d = true := Text.forall_of_all (by decide)
    intro hmem
    have hnot := (hs.host.2 d hmem).2
    rw [ends, hkind] at hnot
    exact absurd (hends d hd) (Bool.eq_false_iff.1 hnot)
  have hmark {d : Char} (hself : (if d = '\\' then '/' else d) = d) (hd : d ∉ "//".toList) :
      d ∉ s.slashes := by
    intro hmem
    have hmapped := List.mem_map_of_mem (f := fun c => if c = '\\' then '/' else c) hmem
    rw [hself] at hmapped
    exact hd (hslashes ▸ hmapped)
  refine ⟨⟨?_, ?_⟩, ?_, hno (by decide), ?_⟩
  · simp only [List.mem_append, not_or]
    exact ⟨hmark (by decide) (by decide), hno (by decide), hs.path.1⟩
  · simp only [List.mem_append, not_or]
    exact ⟨hmark (by decide) (by decide), hno (by decide), hs.path.2.1⟩
  · rw [slashed_append, slashed_append, hslashes, slashed_eq_self (hno (by decide))]
    rfl
  · intro c hc
    rw [slashed, List.head?_map] at hc
    obtain ⟨d, hd, rfl⟩ := Option.map_eq_some_iff.1 hc
    rcases hs.slash_of_head? hd with rfl | rfl <;> rfl

/-- Behind two slashes the host and the path of a file are read on their own. -/
theorem IsWellFormed.readFile (hs : s.IsWellFormed) (hkind : s.kind = .file) {found : Url} :
    readFile (s.scheme.map Text.lowerAscii)
        (s.slashes ++ (s.credentials ++ (s.server ++ (s.path ++ s.endText)))) = .ok found ∧
      found.host ≠ none ↔ ∃ h n, s.Names h n ∧ s.url h n = found := by
  obtain ⟨hcredentials, hserver, hport, huser⟩ := hs.of_file hkind
  obtain ⟨hmarks, hslashed, hslash, hpath⟩ := hs.slashed_file hkind
  have htext : s.slashes ++ (s.credentials ++ (s.server ++ (s.path ++ s.endText))) =
      s.slashes ++ (s.host ++ s.path) ++ s.endText := by
    rw [hcredentials, hserver]
    simp only [List.nil_append, List.append_assoc]
  have hread : s.readHost = Host.readWeb s.host := by
    rw [readHost, hkind]
    rfl
  have hurl (h : Host) : s.url h none =
      (Url.mk (String.ofList (s.scheme.map Text.lowerAscii)) "" none (some h) none
        (String.ofList (Path.normalizeFile ((slashed s.path).drop 1))) none none).withTail true
          s.query s.fragment := by
    rw [url, huser, readPath, hkind]
    rfl
  rw [htext, Url.readFile, hs.cutTail hmarks]
  simp only [hslashed, readFileHost_append hs.host_ne_nil hslash hpath]
  constructor
  · rintro ⟨hfile, hhost⟩
    obtain ⟨⟨host, rest⟩, hpair, hfile⟩ := Outcome.bind_eq_ok.1 hfile
    obtain rfl := Outcome.pure_eq_ok.1 hfile
    change (if Path.startsWithDrive rest then none else host) ≠ none at hhost
    split at hpair
    · cases hpair
      simp at hhost
    · rename_i hdrive
      obtain ⟨h, hweb, hpair⟩ := Outcome.map_eq_ok.1 hpair
      obtain ⟨rfl, rfl⟩ := Prod.mk.inj hpair
      have hstart : ¬Path.startsWithDrive ((slashed s.path).drop 1) = true := by
        intro hstart
        rw [if_pos hstart] at hhost
        exact hhost rfl
      have hlocal : h ≠ .name "localhost" := by
        rintro rfl
        simp at hhost
      refine ⟨h, none, ⟨hread.trans hweb, hport, fun _ => ?_⟩, ?_⟩
      · exact ⟨Bool.eq_false_iff.2 hdrive, hlocal, Bool.eq_false_iff.2 hstart⟩
      · rw [hurl, if_neg hlocal, if_neg hstart]
  · rintro ⟨h, n, hnames, rfl⟩
    obtain ⟨hdrive, hlocal, hstart⟩ := hnames.share hkind
    have hn : n = none := by
      have hnone := hnames.port
      rw [hport] at hnone
      exact (Except.ok.inj hnone).symm
    rw [hn, hurl, hdrive, ← hread, hnames.host]
    refine ⟨?_, Option.some_ne_none h⟩
    simp only [Bool.false_eq_true, if_false, Except.map, Outcome.ok_bind, if_neg hlocal, hstart]
    rfl

theorem IsWellFormed.readServed_eq_ok (hs : s.IsWellFormed) (hkind : s.kind ≠ .file) (found : Url) :
    Url.readServed (s.scheme.map Text.lowerAscii) s.kind.implied?
        (s.credentials ++ (s.server ++ (s.path ++ s.endText))) = .ok found ∧ found.host ≠ none ↔
      ∃ h n, s.Names h n ∧ s.url h n = found := by
  rw [hs.readServed hkind]
  constructor
  · rintro ⟨hread, -⟩
    obtain ⟨h, hhost, hread⟩ := Outcome.bind_eq_ok.1 hread
    obtain ⟨n, hport, hread⟩ := Outcome.bind_eq_ok.1 hread
    exact ⟨h, n, ⟨hhost, hport, fun hfile => absurd hfile hkind⟩, Except.ok.inj hread⟩
  · rintro ⟨h, n, hnames, rfl⟩
    rw [hnames.host, hnames.port]
    exact ⟨rfl, Option.some_ne_none h⟩

/-- What names a host in a text are its parts, each read on its own. -/
theorem IsWellFormed.read (hs : s.IsWellFormed) {found : Url} :
    Url.read (String.ofList s.text) = .ok found ∧ found.host ≠ none ↔
      ∃ h n, s.Names h n ∧ s.url h n = found := by
  rw [Url.read, String.toList_ofList, clean_eq_self (isShown_iff.1 hs.shown), text,
    hs.scheme.cutScheme?]
  simp only [show SchemeKind.ofScheme (s.scheme.map Text.lowerAscii) = s.kind from rfl]
  cases hkind : s.kind with
  | web port =>
      have hserved := hs.readServed_eq_ok (by rw [hkind]; rintro ⟨⟩) found
      have htakes := hs.slashes
      rw [hkind] at hserved htakes
      have hslashes : ∀ c ∈ s.slashes, (decide (c = '/') || decide (c = '\\')) = true := by
        intro c hc
        rcases (show c = '/' ∨ c = '\\' from htakes c hc) with rfl | rfl <;> decide
      have hstop : ∀ c, (s.credentials ++ (s.server ++ (s.path ++ s.endText))).head? = some c →
          (decide (c = '/') || decide (c = '\\')) = false := by
        intro c hc
        have hinner := hs.head?_credentials hc
        rw [ends, hkind] at hinner
        rw [Bool.or_eq_false_iff, decide_eq_false_iff_not, decide_eq_false_iff_not]
        constructor
        · rintro rfl
          cases hinner
        · rintro rfl
          cases hinner
      rw [Text.dropWhile_append_eq hslashes hstop]
      exact hserved
  | file => exact hs.readFile hkind
  | other =>
      have hserved := hs.readServed_eq_ok (by rw [hkind]; rintro ⟨⟩) found
      have htakes := hs.slashes
      rw [hkind] at hserved htakes
      rw [show s.slashes = "//".toList from htakes]
      exact hserved

end Reading

end Spelling

end LinkSieve.Url
