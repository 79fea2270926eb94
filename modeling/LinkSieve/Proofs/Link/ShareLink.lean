import LinkSieve.Link.ShareLink
import LinkSieve.Proofs.Url.Query
import LinkSieve.Proofs.Url.Reading

/-!
# Reading back share links

The canonical text of a link is a URL again, and it is known which one: the URL that the link was
made from, with the parts that the format rewrites replaced by those of the link.
-/

namespace LinkSieve.Link

open Url (Host)

section Checks

variable {title line scheme : String} {url : Url} {server : Address.Server}

theorem checkLength_eq_ok : checkLength line = .ok () ↔ line.utf8ByteSize ≤ maxLineLength := by
  rw [checkLength]
  split
  · rename_i hlong
    constructor
    · intro h
      cases h
    · intro h
      omega
  · rename_i hfits
    simpa using hfits

theorem checkLength_bind_eq_ok {β : Type} {next : Unit → Except Rejection β} {b : β} :
    (checkLength line >>= next) = .ok b ↔
      line.utf8ByteSize ≤ maxLineLength ∧ next () = .ok b := by
  rw [Outcome.bind_eq_ok, ← checkLength_eq_ok]
  constructor
  · rintro ⟨⟨⟩, h⟩
    exact h
  · intro h
    exact ⟨(), h⟩

theorem readUrl_eq_ok : readUrl title line = .ok url ↔ Url.read line = .ok url := by
  rw [readUrl]
  cases Url.read line with
  | ok found => simp
  | error cause => simp

theorem readUrlOf_eq_ok :
    readUrlOf scheme title line = .ok url ↔ Url.read line = .ok url ∧ url.scheme = scheme := by
  rw [readUrlOf, Outcome.bind_eq_ok]
  constructor
  · rintro ⟨found, hread, h⟩
    obtain ⟨hscheme, h⟩ := Outcome.check_eq_ok.1 h
    obtain rfl := Outcome.pure_eq_ok.1 h
    exact ⟨readUrl_eq_ok.1 hread, Classical.not_not.1 hscheme⟩
  · rintro ⟨hread, hscheme⟩
    refine ⟨url, readUrl_eq_ok.2 hread, ?_⟩
    exact Outcome.check_eq_ok.2 ⟨Classical.not_not.2 hscheme, rfl⟩

/-- A server that has been read is the host and the port of the URL, and both are well formed. -/
theorem readServer_eq_ok : readServer title url = .ok server ↔
    hostText? url = some server.host ∧ url.port = some server.port ∧
      Address.isPort server.port = true ∧ Address.isHost server.host.toList = true := by
  rw [readServer]
  cases hhost : hostText? url with
  | none => simp
  | some host =>
      cases hport : url.port with
      | none => simp
      | some port =>
          simp only [Bool.not_eq_true', Option.some.injEq]
          split
          · rename_i hbad
            constructor
            · intro h
              cases h
            · rintro ⟨-, rfl, hgood, -⟩
              rw [hbad] at hgood
              cases hgood
          split
          · rename_i hbad
            constructor
            · intro h
              cases h
            · rintro ⟨rfl, -, -, hgood⟩
              rw [hbad] at hgood
              cases hgood
          · rename_i hp hh
            cases server with
            | mk host' port' =>
                simp only [Except.ok.injEq, Address.Server.mk.injEq]
                constructor
                · rintro ⟨rfl, rfl⟩
                  exact ⟨rfl, rfl, Bool.not_eq_false _ ▸ hp, Bool.not_eq_false _ ▸ hh⟩
                · rintro ⟨rfl, rfl, -, -⟩
                  exact ⟨rfl, rfl⟩

theorem host_ne_none_of_hostText? {host : String} (h : hostText? url = some host) :
    url.host ≠ none := by
  intro hnone
  rw [hostText?, hnone] at h
  cases h

theorem host_ne_none_of_readServer (h : readServer title url = .ok server) : url.host ≠ none :=
  host_ne_none_of_hostText? (readServer_eq_ok.1 h).1

theorem cutSlashes_append {start : List Char} (h : ':' ∉ start) (rest : List Char) :
    portOverflows.cutSlashes (start ++ ("://".toList ++ rest)) = some rest := by
  induction start with
  | nil => rfl
  | cons c start ih =>
      obtain ⟨hc, hstart⟩ := not_or.1 (mt List.mem_cons.2 h)
      have hnone (cs : List Char) : Text.dropPrefix? "://".toList (c :: cs) = none := if_neg hc
      rw [List.cons_append, portOverflows.cutSlashes, hnone]
      exact ih hstart

end Checks

/-- The host of a normal URL stands in the text of its server as it stands in a URL. -/
theorem exists_writes_server {url : Url} {server : Address.Server}
    (hurl : url.authority.IsNormal) (hhost : hostText? url = some server.host) :
    ∃ cs h, url.host = some h ∧ Host.Writes cs h ∧
      server.text = cs ++ ':' :: Decimal.natText server.port := by
  rw [hostText?] at hhost
  cases hh : url.host with
  | none => simp [hh] at hhost
  | some h =>
      have ho := hurl.host h hh
      rw [hh] at hhost
      cases h with
      | name text =>
          simp only at hhost
          split at hhost
          · cases hhost
          obtain rfl := Option.some.inj hhost
          have hcolon : server.host.toList.contains ':' = false := by
            rw [List.contains_eq_mem, decide_eq_false_iff_not]
            intro hmem
            exact absurd (ho.2 ':' hmem).1 (by decide)
          refine ⟨server.host.toList, .name server.host, rfl, .name server.host, ?_⟩
          simp only [Address.Server.text, hcolon, Bool.false_eq_true, if_false]
      | ipv4 ip => exact ho.elim
      | ipv6 ip =>
          have hhost := (Option.some.inj hhost).symm
          have hcolon : server.host.toList.contains ':' = true := by
            rw [hhost, String.toList_ofList, List.contains_eq_mem, decide_eq_true_iff]
            exact Address.Ipv6.colon_mem_text ip
          refine ⟨'[' :: (ip.text ++ [']']), .ipv6 ip, rfl, .ipv6 ip, ?_⟩
          rw [Address.Server.text]
          simp only [hcolon, if_true]
          rw [hhost, String.toList_ofList]

/-- Parameters as the query of a URL, which has none if there are no parameters. -/
def queryPart (q : Query) : Option String :=
  if q.isEmpty then none else some (String.ofList q.text)

/-- A fragment as it is written: an empty one is left out. -/
def fragmentPart (fragment : Option String) : Option String :=
  fragment.filter (!·.isEmpty)

/-- What the links of all formats share with the URL that they are made from. -/
structure ShareLink.IsOf (link : ShareLink) (url : Url) : Prop where
  scheme : link.scheme = url.scheme
  host : hostText? url = some link.server.host
  port : url.port = some link.server.port
  path : Url.Path.IsNormal link.path.toList
  full : link.query.IsFull
  fragment : link.fragment = url.fragment

/-- A URL with the path and the parameters of a link and with given credentials. -/
def ShareLink.urlFrom (link : ShareLink) (url : Url) (username : String)
    (password : Option String) : Url :=
  { url with
    username, password
    path := link.path
    query := queryPart link.query
    fragment := fragmentPart link.fragment }

/-- A link without its fragment if that is empty, which makes no difference to its text. -/
def ShareLink.tidy (link : ShareLink) : ShareLink :=
  { link with fragment := fragmentPart link.fragment }

theorem marked_fragmentPart (f : String) :
    Url.marked '#' (fragmentPart (some f)) = if f.isEmpty then [] else '#' :: f.toList := by
  cases hf : f.isEmpty with
  | true => simp only [fragmentPart, Option.filter_some, hf, Bool.not_true, Bool.false_eq_true,
      if_false, if_true, Url.marked]
  | false => simp only [fragmentPart, Option.filter_some, hf, Bool.not_false, Bool.false_eq_true,
      if_false, if_true, Url.marked]

theorem marked_queryPart (q : Query) :
    Url.marked '?' (queryPart q) = if q.isEmpty then [] else '?' :: q.text := by
  rw [queryPart]
  split
  · rfl
  · rw [Url.marked, String.toList_ofList]

theorem fragmentPart_fragmentPart (fragment : Option String) :
    fragmentPart (fragmentPart fragment) = fragmentPart fragment := by
  rw [fragmentPart, fragmentPart, Option.filter_filter]
  simp only [Bool.and_self]

/-- What stands behind the server of a link. -/
def ShareLink.tail (link : ShareLink) : List Char :=
  link.path.toList ++ Url.marked '?' (queryPart link.query) ++
    Url.marked '#' (fragmentPart link.fragment)

theorem ShareLink.chars_eq (link : ShareLink) :
    link.chars = link.scheme.toList ++ "://".toList ++
      (link.userinfo.toList ++ '@' :: link.server.text) ++ link.tail := by
  rw [chars, tail, marked_queryPart]
  cases link.fragment with
  | none => simp only [fragmentPart, Option.filter_none, Url.marked, List.append_assoc,
      List.cons_append]
  | some f => simp only [marked_fragmentPart, List.append_assoc, List.cons_append]

theorem ShareLink.text_tidy (link : ShareLink) : link.tidy.text = link.text := by
  rw [text, text, chars_eq, chars_eq, tail, tail, tidy, fragmentPart_fragmentPart]

/-- Parameters are written with characters that a query does not escape. -/
theorem inQuery_of_mem_text {q : Query} {c : Char} (h : c ∈ q.text) :
    Url.Escaped.inQuery false c = false := by
  have hmarks : ∀ d ∈ "*-._+%=&".toList, Url.Escaped.inQuery false d = false :=
    Text.forall_of_all (by decide)
  rcases Url.mem_pairsText h with h | h
  · simp only [Url.escapedInForm, Bool.not_eq_false', Bool.or_eq_true, decide_eq_true_iff] at h
    rcases h with (((h | rfl) | rfl) | rfl) | rfl
    · exact Url.inQuery_of_isAlphanum h
    · decide
    · decide
    · decide
    · decide
  · have hsub : ∀ d ∈ "+%=&".toList, d ∈ "*-._+%=&".toList :=
      Text.forall_of_all (by decide)
    exact hmarks c (hsub c h)

theorem inQuery_of_mem_queryPart {q : Query} {text : String} (h : queryPart q = some text) :
    ∀ c ∈ text.toList, Url.Escaped.inQuery false c = false := by
  rw [queryPart] at h
  split at h
  · cases h
  · obtain rfl := Option.some.inj h
    rw [String.toList_ofList]
    exact fun c hc => inQuery_of_mem_text hc

section Parameters

variable {q : Query} {url : Url}

/-- The pairs of a query that parameters are written as are theirs, in the order of names. -/
theorem queryPairs_eq_of_queryPart (h : url.query = queryPart q) : url.queryPairs = q.pairs := by
  rw [Url.queryPairs, h, queryPart]
  split
  · rename_i hempty
    rw [Table.isEmpty_iff.1 hempty]
    rfl
  · rw [Option.getD_some, String.toList_ofList, Query.text, Url.readPairs_pairsText]

/-- Parameters are read back from a query that they are written as. -/
theorem ofUrl_eq_of_queryPart (hfull : q.IsFull) (h : url.query = queryPart q) :
    Query.ofUrl url = q := by
  rw [Query.ofUrl, queryPairs_eq_of_queryPart h, Query.ofPairs_pairs hfull]

end Parameters

section Text

variable {link : ShareLink} {url : Url} {username : String} {password : Option String}

theorem ShareLink.IsOf.isNormal (hlink : link.IsOf url) (hurl : url.IsNormal)
    (huser : ∀ c ∈ username.toList, Url.Escaped.inUserinfo c = false)
    (hpassword : ∀ p, password.map String.toList = some p →
      p ≠ [] ∧ ∀ c ∈ p, Url.Escaped.inUserinfo c = false) :
    (link.urlFrom url username password).IsNormal := by
  constructor
  · exact ⟨huser, hpassword, hurl.authority.host, hurl.authority.port⟩
  · exact hlink.path
  · exact fun q hq => inQuery_of_mem_queryPart hq
  · intro f hf
    have hfragment : fragmentPart url.fragment = some f := hlink.fragment ▸ hf
    exact hurl.fragment f (Option.eq_some_of_filter_eq_some hfragment)

/-- The text of a link spells a URL with a complete server in its normal form. -/
structure ShareLink.Spells (link : ShareLink) (url : Url) : Prop where
  normal : url.IsNormal
  scheme : Url.IsOpaqueScheme url.scheme
  port : url.port = some link.server.port
  chars : ∃ cs h, url.host = some h ∧ Host.Writes cs h ∧
    link.chars = url.textWithHost cs link.server.port

/-- The text of a link spells the URL that the link is made from, with the parts of the link in
their place. -/
theorem ShareLink.IsOf.spells (hlink : link.IsOf url)
    (hurl : (link.urlFrom url username password).IsNormal)
    (hscheme : Url.IsOpaqueScheme url.scheme)
    (hinfo : (link.urlFrom url username password).authority.userinfoText =
      link.userinfo.toList) :
    link.Spells (link.urlFrom url username password) := by
  have hhost : hostText? (link.urlFrom url username password) = some link.server.host :=
    hlink.host
  obtain ⟨cs, h, hh, hw, hserver⟩ := exists_writes_server hurl.authority hhost
  refine ⟨hurl, hscheme, hlink.port, cs, h, hh, hw, ?_⟩
  rw [Url.textWithHost, hinfo, chars_eq, hserver, hlink.scheme]
  rfl

theorem ShareLink.Spells.read_text (h : link.Spells url) : Url.read link.text = .ok url := by
  obtain ⟨cs, host, hhost, hwrites, hchars⟩ := h.chars
  rw [text, hchars]
  exact Url.read_textWithHost h.normal h.scheme hwrites hhost h.port

theorem ShareLink.Spells.isGraphic (h : link.Spells url) :
    ∀ c ∈ link.text.toList, Url.IsGraphic c := by
  obtain ⟨cs, host, hhost, hwrites, hchars⟩ := h.chars
  rw [text, String.toList_ofList, hchars]
  exact Url.isGraphic_of_mem_textWithHost h.normal h.scheme hwrites hhost

/-- The pairs of a link read back from its text, in the order of names. -/
theorem ShareLink.queryPairs_urlFrom (link : ShareLink) (url : Url) (username : String)
    (password : Option String) :
    (link.urlFrom url username password).queryPairs = link.query.pairs :=
  queryPairs_eq_of_queryPart rfl

/-- The parameters of a link read back from its text. -/
theorem ShareLink.IsOf.ofUrl_urlFrom (hlink : link.IsOf url) (username : String)
    (password : Option String) :
    Query.ofUrl (link.urlFrom url username password) = link.query :=
  ofUrl_eq_of_queryPart hlink.full rfl

theorem label_urlFrom (hlink : link.IsOf url) :
    label (link.urlFrom url username password) = label url := by
  have hfragment : (link.urlFrom url username password).fragment = fragmentPart url.fragment :=
    congrArg fragmentPart hlink.fragment
  rw [label, label, hfragment]
  cases url.fragment with
  | none => rfl
  | some f =>
      cases hf : f.isEmpty with
      | true =>
          rw [fragmentPart, Option.filter_some_neg (by rw [hf]; rfl)]
          exact (String.isEmpty_iff.1 hf).symm
      | false => rw [fragmentPart, Option.filter_some_pos (by rw [hf]; rfl)]

/-- Under a scheme without a meaning of its own, a URL with a complete server is normal. -/
theorem isNormal_of_readServer {title line : String} {server : Address.Server}
    (hread : Url.read line = .ok url) (hscheme : Url.IsOpaqueScheme url.scheme)
    (hserver : readServer title url = .ok server) : url.IsNormal :=
  Url.isNormal_of_read hread hscheme.kind (host_ne_none_of_readServer hserver)

end Text

end LinkSieve.Link
