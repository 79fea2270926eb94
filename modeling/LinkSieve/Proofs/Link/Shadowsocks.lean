import LinkSieve.Proofs.Base64
import LinkSieve.Proofs.Link.Dispatcher

/-!
# Shadowsocks links, read back

The credentials of a canonical link are Base64 of a cipher and a password. They read back because a
cipher holds no colon, so the first colon of the decoded text is the one between the two. The text
is not in legacy form, since it has an at sign before its parameters.
-/

namespace LinkSieve.Link.Shadowsocks

section Credentials

variable {cipher password : List Char}

/-- The text of credentials as it stands in canonical links. -/
def credentialsText (cipher password : List Char) : List Char :=
  encode (cipher ++ ':' :: password)

theorem exists_symbol_of_mem_encode {c : Char} {cs : List Char} (h : c ∈ encode cs) :
    ∃ n < 64, Base64.symbol true n = c := by
  have hpadding : Base64.padding .urlBare (Text.Utf8.encode cs) = 0 := rfl
  rw [encode, Base64.encodeText, Base64.encode_eq, hpadding, List.replicate_zero,
    List.append_nil] at h
  obtain ⟨n, hn, heq⟩ := List.mem_map.1 h
  exact ⟨n, Base64.lt_of_mem_groups n hn, heq⟩

theorem inUserinfo_of_mem_encode {cs : List Char} :
    ∀ c ∈ encode cs, Url.Escaped.inUserinfo c = false := by
  have hsymbol : ∀ n < 64, Url.Escaped.inUserinfo (Base64.symbol true n) = false := by decide
  intro c hc
  obtain ⟨n, hn, rfl⟩ := exists_symbol_of_mem_encode hc
  exact hsymbol n hn

/-- What stands in the Base64 of any dialect is none of the marks of a URL. -/
theorem not_mem_encodeText {d : Base64.Dialect} {cs : List Char} {mark : Char}
    (h : mark ∈ "%:@#?".toList) : mark ∉ Base64.encodeText d cs := by
  have hsymbol : ∀ n < 64, ∀ urlSafe, Base64.symbol urlSafe n ∉ "%:@#?".toList := by decide
  intro hc
  rcases Base64.mem_encode d _ hc with ⟨n, hn, rfl⟩ | rfl
  · exact hsymbol n hn d.urlSafe h
  · exact absurd h (by decide)

/-- The escapes of a text are taken off again. -/
theorem unescape_encode {escaped : Char → Bool} {cs : List Char}
    (h : '%' ∈ cs → escaped '%' = true) :
    unescape (String.ofList (Text.Percent.encode escaped cs)) = .ok cs := by
  rw [unescape, String.toList_ofList, Text.Percent.decode_encode h, Text.Utf8.decode?_encode]

/-- A text without a percent sign stands for itself. -/
theorem unescape_eq_self {cs : List Char} (h : '%' ∉ cs) :
    unescape (String.ofList cs) = .ok cs := by
  have hkept : Text.Percent.encode (fun _ => false) cs = cs :=
    Text.Percent.encode_eq_self fun _ _ => rfl
  rw [← hkept, unescape_encode fun hmem => absurd hmem h, hkept]

theorem colon_not_mem_of_isCipher (h : isCipher cipher = true) : ':' ∉ cipher := by
  intro hmem
  exact absurd (List.all_eq_true.1 h ':' hmem) (by decide)

/-- Credentials read back from their text. -/
theorem credentials_credentialsText (h : ':' ∉ cipher) :
    credentials (String.ofList (credentialsText cipher password)) none =
      .ok (cipher, password) := by
  have hdecode : Base64.decodeText? (encode (cipher ++ ':' :: password)) =
      some (cipher ++ ':' :: password) := Base64.decodeText?_encodeText _ _
  have hpercent : '%' ∉ encode (cipher ++ ':' :: password) := not_mem_encodeText (by decide)
  simp only [credentials, credentialsText, unescape_eq_self hpercent,
    Outcome.ok_bind, hdecode, Text.cutFirst?_append_cons h]
  rfl

theorem credentialsText_ne_nil : credentialsText cipher password ≠ [] :=
  Base64.encodeText_ne_nil .urlBare (List.append_ne_nil_of_right_ne_nil _ (List.cons_ne_nil _ _))

end Credentials

/-- An optional part with the mark that goes before it. -/
def part (mark : Char) : Option (List Char) → List Char
  | some cs => mark :: cs
  | none => []

/-- A link with an at sign before its parameters is left as it is. -/
theorem expandLegacy_eq_self {line : String} {before after : List Char}
    (hrest : afterScheme? "ss".toList line.toList = some (before ++ '@' :: after))
    (hfragment : '#' ∉ before) (hquery : '?' ∉ before) : expandLegacy line = .ok line := by
  have hnot {sep : Char} (hsep : sep ∉ before) (hat : sep ≠ '@') : sep ∉ before ++ ['@'] := by
    rw [List.mem_append, List.mem_singleton]
    exact not_or.2 ⟨hsep, hat⟩
  have hsplit : before ++ '@' :: after = before ++ ['@'] ++ after := by simp
  have hcontains : (Text.cutOption '?' (Text.cutOption '#' (before ++ '@' :: after)).1).1.contains
      '@' = true := by
    rw [hsplit, Text.cutOption_append (hnot hfragment (by decide)),
      Text.cutOption_append (hnot hquery (by decide))]
    simp
  rw [expandLegacy, hrest]
  simp only [hcontains, if_true]
  rfl

variable {url : Url} {link : ShareLink} {cipher : List Char}

theorem link_eq_ok : Shadowsocks.link url = .ok (link, cipher) ↔
    url.username.isEmpty = false ∧ ∃ password,
      credentials url.username url.password = .ok (cipher, password) ∧
      (cipher.isEmpty || password.isEmpty) = false ∧
      ∃ server, readServer title url = .ok server ∧
        link = {
          scheme := "ss"
          userinfo := String.ofList (credentialsText cipher password)
          server
          path := ""
          query := Query.ofUrl url
          fragment := url.fragment } := by
  rw [Shadowsocks.link, Outcome.check_eq_ok, Outcome.bind_eq_ok, Bool.not_eq_true]
  simp only [Outcome.check_eq_ok, Outcome.bind_eq_ok, Outcome.pure_eq_ok, Bool.not_eq_true,
    Prod.mk.injEq, Prod.exists]
  constructor
  · rintro ⟨huser, cipher', password, hcredentials, hfilled, server, hserver, hlink, rfl⟩
    exact ⟨huser, password, hcredentials, hfilled, server, hserver, hlink⟩
  · rintro ⟨huser, password, hcredentials, hfilled, server, hserver, hlink⟩
    exact ⟨huser, cipher, password, hcredentials, hfilled, server, hserver, hlink, rfl⟩

theorem isOf_of_link (hscheme : url.scheme = "ss")
    (h : Shadowsocks.link url = .ok (link, cipher)) : link.IsOf url := by
  obtain ⟨-, password, -, -, server, hserver, rfl⟩ := link_eq_ok.1 h
  obtain ⟨hhost, hport, -, -⟩ := readServer_eq_ok.1 hserver
  exact ⟨hscheme.symm, hhost, hport, Url.Path.isNormal_nil, Query.isFull_ofPairs _, rfl⟩

/-- The URL as which the text of a link is read. -/
def readBack (link : ShareLink) (url : Url) : Url :=
  link.urlFrom url link.userinfo none

/-- The credentials of a link are those of the URL it is made from. -/
theorem credentials_readBack (hcipher : isCipher cipher = true)
    (h : Shadowsocks.link url = .ok (link, cipher)) :
    credentials (readBack link url).username (readBack link url).password =
      credentials url.username url.password := by
  obtain ⟨-, password, hcredentials, -, server, -, rfl⟩ := link_eq_ok.1 h
  rw [hcredentials]
  exact credentials_credentialsText (colon_not_mem_of_isCipher hcipher)

theorem link_readBack (hscheme : url.scheme = "ss") (hcipher : isCipher cipher = true)
    (h : Shadowsocks.link url = .ok (link, cipher)) :
    Shadowsocks.link (readBack link url) = .ok (link.tidy, cipher) := by
  have hquery := (isOf_of_link hscheme h).ofUrl_urlFrom link.userinfo none
  have hcredentials := credentials_readBack hcipher h
  obtain ⟨-, password, hpair, hfilled, server, hserver, rfl⟩ := link_eq_ok.1 h
  have huser : (String.ofList (credentialsText cipher password)).isEmpty = false := by
    rw [Bool.eq_false_iff]
    intro hempty
    have hnil := congrArg String.toList (String.isEmpty_iff.1 hempty)
    rw [String.toList_ofList] at hnil
    exact credentialsText_ne_nil hnil
  refine link_eq_ok.2 ⟨huser, password, hcredentials.trans hpair, hfilled, server, hserver, ?_⟩
  rw [readBack, hquery]
  rfl

theorem isNormal_of_link {line : String} (hread : Url.read line = .ok url)
    (hscheme : url.scheme = "ss") (h : Shadowsocks.link url = .ok (link, cipher)) :
    Url.IsOpaqueScheme url.scheme ∧ url.IsNormal := by
  obtain ⟨-, password, -, -, server, hserver, -⟩ := link_eq_ok.1 h
  have hother : Url.IsOpaqueScheme url.scheme :=
    hscheme ▸ Protocol.isOpaqueScheme (p := .shadowsocks) (by decide)
  exact ⟨hother, isNormal_of_readServer hread hother hserver⟩

theorem spells_readBack {line : String} (hread : Url.read line = .ok url)
    (hscheme : url.scheme = "ss") (h : Shadowsocks.link url = .ok (link, cipher)) :
    link.Spells (readBack link url) := by
  obtain ⟨hother, hurl⟩ := isNormal_of_link hread hscheme h
  have hof := isOf_of_link hscheme h
  obtain ⟨-, password, -, -, server, hserver, rfl⟩ := link_eq_ok.1 h
  refine hof.spells (hof.isNormal hurl ?_ fun _ hp => nomatch hp) hother rfl
  simp only [String.toList_ofList]
  exact inUserinfo_of_mem_encode

theorem read_text {line : String} (hread : Url.read line = .ok url)
    (hscheme : url.scheme = "ss") (h : Shadowsocks.link url = .ok (link, cipher)) :
    Url.read link.text = .ok (readBack link url) :=
  (spells_readBack hread hscheme h).read_text

/-- The canonical text of a link is in no legacy form. -/
theorem expandLegacy_text (h : Shadowsocks.link url = .ok (link, cipher)) :
    expandLegacy link.text = .ok link.text := by
  obtain ⟨-, password, -, -, server, -, hlink⟩ := link_eq_ok.1 h
  have hscheme : link.scheme = "ss" := congrArg ShareLink.scheme hlink
  have hinfo : link.userinfo = String.ofList (credentialsText cipher password) :=
    congrArg ShareLink.userinfo hlink
  have hrest := link.afterScheme?_text
  rw [hscheme, hinfo] at hrest
  have hmark {mark : Char} (h : mark ∈ "%:@#?".toList) :
      mark ∉ (String.ofList (credentialsText cipher password)).toList := by
    rw [String.toList_ofList, credentialsText, encode]
    exact not_mem_encodeText h
  exact expandLegacy_eq_self hrest (hmark (by decide)) (hmark (by decide))

theorem draft_eq_ok {line : String} {draft : Draft} : Shadowsocks.draft line = .ok draft ↔
    line.utf8ByteSize ≤ maxLineLength ∧ ∃ text url link cipher, expandLegacy line = .ok text ∧
      Url.read text = .ok url ∧ url.scheme = "ss" ∧
      Shadowsocks.link url = .ok (link, cipher) ∧
        draft = ⟨label url, policyParams link.query cipher, link.text⟩ := by
  rw [Shadowsocks.draft, checkLength_bind_eq_ok]
  simp only [Outcome.bind_eq_ok, Outcome.pure_eq_ok, readUrlOf_eq_ok, Prod.exists]
  constructor
  · rintro ⟨hlength, text, hexpand, url, ⟨hread, hscheme⟩, link, cipher, hlink, hdraft⟩
    exact ⟨hlength, text, url, link, cipher, hexpand, hread, hscheme, hlink, hdraft⟩
  · rintro ⟨hlength, text, url, link, cipher, hexpand, hread, hscheme, hlink, hdraft⟩
    exact ⟨hlength, text, hexpand, url, ⟨hread, hscheme⟩, link, cipher, hlink, hdraft⟩

theorem isCipher_of_policyParams {q : Query} {params : Params}
    (h : policyParams q cipher = .ok params) :
    isCipher cipher = true ∧ params = q.first.insert "method" (String.ofList cipher) := by
  rw [policyParams] at h
  split at h
  · rename_i hcipher
    exact ⟨hcipher, (Except.ok.inj h).symm⟩
  · cases h

/-- The canonical text of a link whose cipher is well formed has the draft of its line. -/
theorem draft_canonical {line : String} {draft : Draft} {params : Params}
    (h : Shadowsocks.draft line = .ok draft) (hparams : draft.params = .ok params)
    (hlength : draft.canonical.utf8ByteSize ≤ maxLineLength) :
    Shadowsocks.draft draft.canonical = .ok draft := by
  obtain ⟨-, text, url, link, cipher, -, hread, hscheme, hlink, rfl⟩ := draft_eq_ok.1 h
  have hcipher := (isCipher_of_policyParams hparams).1
  have hof := isOf_of_link hscheme hlink
  refine draft_eq_ok.2 ⟨hlength, link.text, readBack link url, link.tidy, cipher,
    expandLegacy_text hlink, read_text hread hscheme hlink, hscheme,
    link_readBack hscheme hcipher hlink, ?_⟩
  rw [readBack, label_urlFrom hof, ShareLink.text_tidy]
  rfl

end LinkSieve.Link.Shadowsocks
