import LinkSieve.Proofs.Outcome
import LinkSieve.Proofs.Url.Path

/-!
# Normal URLs

The parts of a URL that has been read are normal: each is escaped as its place demands, an absent
password is told apart from an empty one only by being absent, and the path has no dot segments.
Nothing is left for a second reading to change. This is what a URL that names a server under a
scheme other than the web's is known to be.
-/

namespace LinkSieve.Url

/-- A host as it is kept under a scheme that gives it no further meaning. -/
def Host.IsOpaque : Host → Prop
  | .name text =>
    text ≠ "" ∧ ∀ c ∈ text.toList, isForbidden c = false ∧ Escaped.always c = false
  | .ipv4 _ => False
  | .ipv6 _ => True

/-- The parts of an authority in their escaped form. -/
structure Authority.IsNormal (a : Authority) : Prop where
  username : ∀ c ∈ a.username, Escaped.inUserinfo c = false
  password : ∀ p, a.password = some p → p ≠ [] ∧ ∀ c ∈ p, Escaped.inUserinfo c = false
  host : ∀ h, a.host = some h → h.IsOpaque
  port : ∀ n, a.port = some n → n ≤ 65535

theorem always_escapeChars : ∀ c ∈ Text.Percent.escapeChars, Escaped.always c = false :=
  Text.forall_of_all (by decide)

theorem inUserinfo_escapeChars :
    ∀ c ∈ Text.Percent.escapeChars, Escaped.inUserinfo c = false :=
  Text.forall_of_all (by decide)

theorem inQuery_escapeChars :
    ∀ c ∈ Text.Percent.escapeChars, Escaped.inQuery false c = false :=
  Text.forall_of_all (by decide)

theorem inFragment_escapeChars :
    ∀ c ∈ Text.Percent.escapeChars, Escaped.inFragment c = false :=
  Text.forall_of_all (by decide)

theorem isForbidden_escapeChars :
    ∀ c ∈ Text.Percent.escapeChars, Host.isForbidden c = false :=
  Text.forall_of_all (by decide)

theorem isOpaque_of_readBracketed {inner : List Char} {h : Host}
    (hread : Host.readBracketed inner = .ok h) : h.IsOpaque := by
  rw [Host.readBracketed] at hread
  split at hread
  · split at hread
    · cases hread
      trivial
    · cases hread
  · cases hread

theorem Host.readOpaque_of_head? {cs : List Char} (h : cs.head? ≠ some '[') :
    Host.readOpaque cs =
      if cs.any isForbidden then .error .badHostCharacter
      else .ok (.name (String.ofList (Text.Percent.encode Escaped.always cs))) := by
  unfold Host.readOpaque
  split
  · exact absurd rfl h
  · rfl

theorem isOpaque_of_readOpaque {cs : List Char} {h : Host} (hne : cs ≠ [])
    (hread : Host.readOpaque cs = .ok h) : h.IsOpaque := by
  by_cases hbracket : cs.head? = some '['
  · obtain ⟨inner, rfl⟩ := List.head?_eq_some_iff.1 hbracket
    exact isOpaque_of_readBracketed hread
  · rw [Host.readOpaque_of_head? hbracket] at hread
    split at hread
    · cases hread
    · rename_i hall
      cases hread
      constructor
      · intro hempty
        have hnil := congrArg String.toList hempty
        rw [String.toList_ofList] at hnil
        exact Text.Percent.encode_ne_nil hne hnil
      · intro c hc
        rw [String.toList_ofList] at hc
        have halways := Text.Percent.not_escaped_of_mem_encode always_escapeChars hc
        have hforbidden : Host.isForbidden c = false := by
          rcases Text.Percent.mem_encode hc with ⟨hmem, -⟩ | hmem
          · rw [List.any_eq_true] at hall
            exact Bool.eq_false_iff.2 fun hf => hall ⟨c, hmem, hf⟩
          · exact isForbidden_escapeChars c hmem
        exact ⟨hforbidden, halways⟩

theorem readOpaque_of_readHost {cs : List Char} {h : Host}
    (hread : Authority.readHost false cs = .ok (some h)) :
    cs ≠ [] ∧ Host.readOpaque cs = .ok h := by
  rw [Authority.readHost, if_neg Bool.false_ne_true] at hread
  split at hread
  · cases hread
  · rename_i hne
    cases hfound : Host.readOpaque cs with
    | error e =>
        rw [hfound] at hread
        cases hread
    | ok found =>
        rw [hfound] at hread
        cases hread
        exact ⟨fun hnil => hne (by rw [hnil]; rfl), rfl⟩

theorem isOpaque_of_readHost {cs : List Char} {host : Option Host}
    (hread : Authority.readHost false cs = .ok host) : ∀ h, host = some h → h.IsOpaque := by
  rintro h rfl
  obtain ⟨hne, hread⟩ := readOpaque_of_readHost hread
  exact isOpaque_of_readOpaque hne hread

theorem le_of_readPort {implied port : Option Nat} {cs more : List Char}
    (hread : Authority.readPort implied cs = .ok (port, more)) :
    ∀ n, port = some n → n ≤ 65535 := by
  rintro n rfl
  rw [Authority.readPort] at hread
  split at hread
  · cases hread
  · rename_i hfits
    rw [Bool.or_eq_true, not_or, decide_eq_true_iff] at hfits
    simp only [Except.ok.injEq, Prod.mk.injEq] at hread
    obtain ⟨hport, -⟩ := hread
    split at hport
    · cases hport
    · obtain rfl := Option.some.inj hport
      omega

/-- A host that has been read is opaque, and a port is one that a port can be. -/
theorem readServer_spec {cs more : List Char} {implied port : Option Nat} {host : Option Host}
    (hread : Authority.readServer false implied cs = .ok (host, port, more)) :
    (∀ h, host = some h → h.IsOpaque) ∧ ∀ n, port = some n → n ≤ 65535 := by
  rw [Authority.readServer] at hread
  obtain ⟨found, hhost, hread⟩ := Outcome.bind_eq_ok.1 hread
  have hkept := isOpaque_of_readHost hhost
  split at hread
  · obtain ⟨-, hread⟩ := Outcome.check_eq_ok.1 hread
    obtain ⟨⟨found', more'⟩, hport, hread⟩ := Outcome.bind_eq_ok.1 hread
    cases hread
    exact ⟨hkept, le_of_readPort hport⟩
  · cases hread
    exact ⟨hkept, fun n hn => nomatch hn⟩

theorem readUserinfo_spec (cs : List Char) :
    (∀ c ∈ (Authority.readUserinfo cs).1, Escaped.inUserinfo c = false) ∧
      ∀ p, (Authority.readUserinfo cs).2 = some p →
        p ≠ [] ∧ ∀ c ∈ p, Escaped.inUserinfo c = false := by
  have hescaped (ds : List Char) :
      ∀ c ∈ Text.Percent.encode Escaped.inUserinfo ds, Escaped.inUserinfo c = false :=
    fun _ hc => Text.Percent.not_escaped_of_mem_encode inUserinfo_escapeChars hc
  rw [Authority.readUserinfo]
  split
  · exact ⟨hescaped _, fun p hp => nomatch hp⟩
  · rename_i before after _
    refine ⟨hescaped before, ?_⟩
    intro p hp
    simp only at hp
    split at hp
    · cases hp
    · rename_i hne
      obtain rfl := Option.some.inj hp
      constructor
      · exact Text.Percent.encode_ne_nil fun hnil => hne (by rw [hnil]; rfl)
      · exact hescaped after

/-- An authority that has been read is normal. -/
theorem Authority.isNormal_of_read {cs more : List Char} {implied : Option Nat} {last : Bool}
    {a : Authority} (hread : Authority.read false implied last cs = .ok (a, more)) :
    a.IsNormal := by
  rw [Authority.read] at hread
  obtain ⟨-, hread⟩ := Outcome.check_eq_ok.1 hread
  obtain ⟨⟨host, port, found⟩, hserver, hread⟩ := Outcome.bind_eq_ok.1 hread
  obtain ⟨-, hread⟩ := Outcome.check_eq_ok.1 hread
  cases hread
  have huser := readUserinfo_spec
  exact ⟨(huser _).1, (huser _).2, (readServer_spec hserver).1, (readServer_spec hserver).2⟩

/-- The parts of a URL that stand in its authority. -/
def authority (url : Url) : Authority where
  username := url.username.toList
  password := url.password.map String.toList
  host := url.host
  port := url.port

theorem withAuthority_authority (url : Url) : url.withAuthority url.authority = url := by
  cases url with
  | mk scheme username password host port path query fragment =>
      cases password <;> simp [withAuthority, authority]

theorem authority_withAuthority (url : Url) (a : Authority) :
    (url.withAuthority a).authority = a := by
  cases a with
  | mk username password host port =>
      cases password <;> simp [withAuthority, authority]

/-- A URL whose parts are in the form in which a reading leaves them. -/
structure IsNormal (url : Url) : Prop where
  authority : url.authority.IsNormal
  path : Path.IsNormal url.path.toList
  query : ∀ q, url.query = some q → ∀ c ∈ q.toList, Escaped.inQuery false c = false
  fragment : ∀ f, url.fragment = some f → ∀ c ∈ f.toList, Escaped.inFragment c = false

/-- The URL of given parts, each in the form in which it is kept. -/
def served (scheme : List Char) (a : Authority) (path : List Char)
    (query fragment : Option (List Char)) : Url :=
  let url : Url := { scheme := String.ofList scheme, path := String.ofList (otherPath path) }
  (url.withAuthority a).withTail false query fragment

/-- Without a port that the scheme implies, a reading takes the authority up to the first
character that ends it, and cuts the rest. -/
theorem readServed_none (scheme cs : List Char) :
    readServed scheme none cs =
      (Authority.read false none (cs.dropWhile (!endsAuthority false ·)).isEmpty
        (cs.takeWhile (!endsAuthority false ·))) >>= fun (a, more) =>
          let (path, query, fragment) := cutTail (more ++ cs.dropWhile (!endsAuthority false ·))
          .ok (served scheme a path query fragment) := rfl

theorem isNormal_served {scheme path : List Char} {a : Authority}
    {query fragment : Option (List Char)} (ha : a.IsNormal) :
    (served scheme a path query fragment).IsNormal := by
  constructor
  · have hauthority : (served scheme a path query fragment).authority = a :=
      authority_withAuthority { scheme := String.ofList scheme } a
    rw [hauthority]
    exact ha
  · change Path.IsNormal (String.ofList (otherPath path)).toList
    rw [String.toList_ofList]
    exact Path.isNormal_otherPath path
  · intro q hq c hc
    obtain ⟨cs, -, rfl⟩ := Option.map_eq_some_iff.1 hq
    rw [String.toList_ofList] at hc
    exact Text.Percent.not_escaped_of_mem_encode inQuery_escapeChars hc
  · intro f hf c hc
    obtain ⟨cs, -, rfl⟩ := Option.map_eq_some_iff.1 hf
    rw [String.toList_ofList] at hc
    exact Text.Percent.not_escaped_of_mem_encode inFragment_escapeChars hc

theorem isNormal_of_readServed {scheme cs : List Char} {url : Url}
    (hread : readServed scheme none cs = .ok url) : url.IsNormal := by
  rw [readServed_none] at hread
  obtain ⟨⟨a, more⟩, hauthority, hread⟩ := Outcome.bind_eq_ok.1 hread
  cases hread
  exact isNormal_served (Authority.isNormal_of_read hauthority)

theorem scheme_of_readServed {scheme cs : List Char} {implied : Option Nat} {url : Url}
    (hread : readServed scheme implied cs = .ok url) : url.scheme = String.ofList scheme := by
  rw [readServed] at hread
  obtain ⟨⟨a, more⟩, -, hread⟩ := Outcome.bind_eq_ok.1 hread
  cases hread
  rfl

theorem scheme_of_readFile {scheme cs : List Char} {url : Url}
    (hread : readFile scheme cs = .ok url) : url.scheme = String.ofList scheme := by
  rw [readFile] at hread
  obtain ⟨⟨host, path⟩, -, hread⟩ := Outcome.bind_eq_ok.1 hread
  cases hread
  rfl

/-- A URL that names a host under a scheme without a meaning of its own has an authority after two
slashes. -/
theorem readServed_of_read {text : String} {url : Url} (hread : Url.read text = .ok url)
    (hkind : SchemeKind.ofScheme url.scheme.toList = .other) (hhost : url.host ≠ none) :
    ∃ rest, cutScheme? (clean text.toList) = some (url.scheme.toList, '/' :: '/' :: rest) ∧
      readServed url.scheme.toList none rest = .ok url := by
  rw [Url.read] at hread
  split at hread
  · cases hread
  · rename_i scheme rest hcut
    have hscheme (h : url.scheme = String.ofList scheme) : url.scheme.toList = scheme := by
      rw [h, String.toList_ofList]
    split at hread
    · rename_i hweb
      rw [← hscheme (scheme_of_readServed hread), hkind] at hweb
      cases hweb
    · rename_i hfile
      rw [← hscheme (scheme_of_readFile hread), hkind] at hfile
      cases hfile
    · split at hread
      · rw [hscheme (scheme_of_readServed hread)]
        exact ⟨_, hcut, hread⟩
      · cases hread
        exact absurd rfl hhost

/-- A URL that names a host under a scheme without a meaning of its own is normal. -/
theorem isNormal_of_read {text : String} {url : Url} (hread : Url.read text = .ok url)
    (hkind : SchemeKind.ofScheme url.scheme.toList = .other) (hhost : url.host ≠ none) :
    url.IsNormal := by
  obtain ⟨rest, -, hserved⟩ := readServed_of_read hread hkind hhost
  exact isNormal_of_readServed hserved

end LinkSieve.Url
