import LinkSieve.Link.Identity
import LinkSieve.Proofs.Table
import LinkSieve.Proofs.Url.Delimited

/-!
# What a key tells of a link

The parts of an identity are found again in its key, the parameters as one text. So links with one
key agree in scheme, host, port and path. Names and values stand in that text as they are, without
escapes: the text tells the parameters only if no name holds an equals sign or an ampersand and no
value holds an ampersand, and without that links with different parameters may share a key.
-/

namespace LinkSieve.Link

namespace Identity

/-- A port as it stands in a key. -/
def portText (port : Option Nat) : List Char :=
  match port with
  | some n => ':' :: Decimal.natText n
  | none => []

/-- The parameters of an identity as they stand in its key. -/
def paramsText (id : Identity) : List Char :=
  List.intercalate ['&'] (id.params.entries.map fun param => (paramText param).toList)

/-- The end of a key, which names the parameters if there are any. -/
def queryText (id : Identity) : List Char :=
  if id.paramsText = [] then [] else '?' :: id.paramsText

theorem toList_paramText (param : String × String) :
    (paramText param).toList = param.1.toList ++ '=' :: param.2.toList := by
  simp [paramText, String.toList_append]

theorem toList_queryPart (query : String) :
    (if query.isEmpty then "" else "?" ++ query).toList =
      if query.toList = [] then [] else '?' :: query.toList := by
  have hempty : query.isEmpty = true ↔ query.toList = [] := by
    rw [String.isEmpty_iff, String.toList_eq_nil_iff]
  split
  · rename_i h
    rw [if_pos (hempty.1 h)]
    rfl
  · rename_i h
    rw [if_neg (mt hempty.2 h), String.toList_append]
    rfl

theorem toList_key (id : Identity) :
    id.key.toList = id.scheme.toList ++ ':' :: '/' :: '/' ::
      (id.host.toList ++ portText id.port ++ (id.path.toList ++ id.queryText)) := by
  have hparams : (String.intercalate "&" (id.params.entries.map paramText)).toList =
      id.paramsText := by
    rw [String.toList_intercalate, List.map_map]
    rfl
  have hquery := toList_queryPart (String.intercalate "&" (id.params.entries.map paramText))
  rw [hparams] at hquery
  have hslashes : "://".toList = [':', '/', '/'] := rfl
  have hcolon : ":".toList = [':'] := rfl
  cases hport : id.port with
  | none =>
      simp only [key, hport, String.toList_append, hquery, hslashes, String.toList_empty,
        portText, queryText, List.append_assoc, List.cons_append, List.nil_append]
  | some n =>
      simp only [key, hport, String.toList_append, hquery, hslashes, hcolon,
        Nat.toString_eq_repr, Nat.toList_repr, portText, Decimal.natText, queryText,
        List.append_assoc, List.cons_append, List.nil_append]

/-- The parts of an identity as texts, the parameters in one piece. -/
structure Parts where
  scheme : List Char
  host : List Char
  port : List Char
  path : List Char
  params : List Char

/-- The parts of an identity as they stand in its key. -/
def parts (id : Identity) : Parts where
  scheme := id.scheme.toList
  host := id.host.toList
  port := portText id.port
  path := id.path.toList
  params := id.paramsText

/-- The parts that a key is cut into. -/
def Parts.ofKey (key : List Char) : Parts :=
  let (scheme, rest) := Text.cutOption ':' key
  let place := (rest.getD []).drop 2
  let (host, port) :=
    Url.Authority.takeHost false (place.takeWhile (!Url.endsAuthority false ·))
  let (path, params) := Text.cutOption '?' (place.dropWhile (!Url.endsAuthority false ·))
  ⟨scheme, host, port, path, params.getD []⟩

/-- An identity with parts that hold no mark at which they would end in a key. -/
structure IsDelimited (id : Identity) : Prop where
  scheme : ':' ∉ id.scheme.toList
  host : Url.IsHostText id.host.toList
  path : Url.Path.IsRooted id.path.toList

theorem head?_portText {port : Option Nat} {c : Char} (hc : (portText port).head? = some c) :
    c = ':' := by
  cases port with
  | none => cases hc
  | some n => exact (Option.some.inj hc).symm

theorem endsAuthority_of_mem_portText {port : Option Nat} {c : Char} (hc : c ∈ portText port) :
    Url.endsAuthority false c = false := by
  have hdigit : ∀ d ∈ Decimal.digitChars, Url.endsAuthority false d = false :=
    Text.forall_of_all (by decide)
  cases port with
  | none => cases hc
  | some n =>
      rcases List.mem_cons.1 hc with rfl | hc
      · decide
      · exact hdigit c (Decimal.mem_digitChars_of_mem_toDigits Decimal.isBase_ten hc)

theorem portText_injective {p q : Option Nat} (h : portText p = portText q) : p = q := by
  cases p with
  | none =>
      cases q with
      | none => rfl
      | some n => cases h
  | some m =>
      cases q with
      | none => cases h
      | some n =>
          have hvalue := congrArg (Decimal.ofDigits 10) (List.cons.inj h).2
          rw [Decimal.natText, Decimal.natText, Decimal.ofDigits_toDigits Decimal.isBase_ten,
            Decimal.ofDigits_toDigits Decimal.isBase_ten] at hvalue
          rw [hvalue]

section Parts

variable {id : Identity}

theorem IsDelimited.head?_back (h : id.IsDelimited) {c : Char}
    (hc : (id.path.toList ++ id.queryText).head? = some c) : Url.endsAuthority false c = true := by
  rw [List.head?_append] at hc
  rcases Option.or_eq_some_iff.1 hc with hc | ⟨-, hc⟩
  · rw [h.path.head c hc]
    rfl
  · rw [queryText] at hc
    split at hc
    · cases hc
    · rw [← Option.some.inj hc]
      rfl

theorem IsDelimited.cutOption_back (h : id.IsDelimited) :
    Text.cutOption '?' (id.path.toList ++ id.queryText) =
      (id.path.toList, if id.paramsText = [] then none else some id.paramsText) := by
  rw [queryText]
  split
  · rw [List.append_nil, Text.cutOption_of_not_mem h.path.not_query]
  · rw [Text.cutOption_append_cons h.path.not_query]

/-- A key is cut into the parts it was put together from. -/
theorem IsDelimited.ofKey_key (h : id.IsDelimited) : Parts.ofKey id.key.toList = id.parts := by
  have hserver : ∀ c ∈ id.host.toList ++ portText id.port,
      (!Url.endsAuthority false c) = true := by
    intro c hc
    rw [Bool.not_eq_true']
    rcases List.mem_append.1 hc with hc | hc
    · exact h.host.bounded c hc
    · exact endsAuthority_of_mem_portText hc
  have hback : ∀ c, (id.path.toList ++ id.queryText).head? = some c →
      (!Url.endsAuthority false c) = false := by
    intro c hc
    rw [h.head?_back hc]
    rfl
  have hhost := h.host.takeHost (portText id.port) fun _ hc => head?_portText hc
  simp only [Parts.ofKey, toList_key, Text.cutOption_append_cons h.scheme, Option.getD_some,
    List.drop_succ_cons, List.drop_zero, Text.takeWhile_append_eq hserver hback,
    Text.dropWhile_append_eq hserver hback, hhost, h.cutOption_back]
  rw [parts, Parts.mk.injEq]
  refine ⟨rfl, rfl, rfl, rfl, ?_⟩
  split
  · rename_i hnil
    exact hnil.symm
  · rfl

end Parts

/-- Parameters that are told by their text: no name or value holds a mark that ends it. -/
def IsPlain (params : Params) : Prop :=
  ∀ param ∈ params.entries,
    '=' ∉ param.1.toList ∧ '&' ∉ param.1.toList ∧ '&' ∉ param.2.toList

instance (params : Params) : Decidable (IsPlain params) :=
  inferInstanceAs (Decidable (∀ param ∈ params.entries, _))

/-- The names and values that the text of parameters is cut into. -/
def cutParams (text : List Char) : List (List Char × Option (List Char)) :=
  ((text.splitOn '&').filter (!·.isEmpty)).map (Text.cutOption '=')

/-- Plain parameters are found again in their text. -/
theorem cutParams_paramsText {id : Identity} (h : IsPlain id.params) :
    cutParams id.paramsText =
      id.params.entries.map fun param => (param.1.toList, some param.2.toList) := by
  rw [paramsText]
  rw [IsPlain] at h
  cases hentries : id.params.entries with
  | nil => rfl
  | cons first rest =>
      rw [hentries] at h
      have hsplit : (List.intercalate ['&'] ((first :: rest).map
          fun param => (paramText param).toList)).splitOn '&' =
            (first :: rest).map fun param => (paramText param).toList := by
        apply List.splitOn_intercalate
        · intro piece hpiece
          obtain ⟨param, hmem, rfl⟩ := List.mem_map.1 hpiece
          obtain ⟨-, hname, hvalue⟩ := h param hmem
          rw [toList_paramText, List.mem_append, List.mem_cons]
          rintro (hamp | hamp | hamp)
          · exact hname hamp
          · cases hamp
          · exact hvalue hamp
        · simp
      have hfilter : ((first :: rest).map fun param => (paramText param).toList).filter
          (!·.isEmpty) = (first :: rest).map fun param => (paramText param).toList := by
        rw [List.filter_eq_self]
        intro piece hpiece
        obtain ⟨param, -, rfl⟩ := List.mem_map.1 hpiece
        simp [toList_paramText]
      rw [cutParams, hsplit, hfilter, List.map_map]
      apply List.map_congr_left
      intro param hmem
      rw [Function.comp_apply, toList_paramText, Text.cutOption_append_cons (h param hmem).1]

/-- Plain parameters with one text are the same. -/
theorem params_eq_of_paramsText_eq {i j : Identity} (hi : IsPlain i.params)
    (hj : IsPlain j.params) (h : i.paramsText = j.paramsText) : i.params = j.params := by
  have hcut : (i.params.entries.map fun param => (param.1.toList, some param.2.toList)) =
      j.params.entries.map fun param => (param.1.toList, some param.2.toList) := by
    rw [← cutParams_paramsText hi, h, cutParams_paramsText hj]
  apply Table.eq_of_entries_eq
  apply (List.map_inj_right _).1 hcut
  intro p q heq
  obtain ⟨hname, hvalue⟩ := Prod.mk.inj heq
  exact Prod.ext (String.toList_inj.1 hname) (String.toList_inj.1 (Option.some.inj hvalue))

theorem ofLine_eq_ok {line : String} {id : Identity} :
    ofLine line = .ok id ↔ ∃ url, Url.read line = .ok url ∧ ofUrl url = .ok id := by
  rw [ofLine]
  cases Url.read line with
  | error e => simp
  | ok url => simp

theorem host_ne_none_of_ofUrl {url : Url} {id : Identity} (h : ofUrl url = .ok id) :
    url.host ≠ none := by
  intro hnone
  rw [ofUrl, hnone] at h
  cases h

/-- The parts of where a URL leads can be told apart in its key. -/
theorem isDelimited_of_ofLine {line : String} {id : Identity} (h : ofLine line = .ok id) :
    id.IsDelimited := by
  obtain ⟨url, hread, h⟩ := ofLine_eq_ok.1 h
  have hurl := Url.isDelimited_of_read hread (host_ne_none_of_ofUrl h)
  unfold ofUrl at h
  split at h
  · cases h
  · rename_i host hhost
    cases h
    refine ⟨hurl.scheme, ?_, ?_⟩
    · rw [String.toList_ofList]
      exact (hurl.host host hhost).isHostText_lower
    · simp only
      split
      · exact Url.Path.isRooted_nil
      · exact hurl.path

end Identity

theorem identityKey_eq_ok {line key : String} :
    identityKey line = .ok key ↔ ∃ id, Identity.ofLine line = .ok id ∧ id.key = key := by
  rw [identityKey]
  cases Identity.ofLine line with
  | error e => simp [Except.map]
  | ok id => simp [Except.map]

/-- Links with one key agree in scheme, host, port and path, and in their parameters too if these
are plain on both sides. -/
theorem agree_of_identityKey_eq {a b key : String} (ha : identityKey a = .ok key)
    (hb : identityKey b = .ok key) :
    ∃ i j, Identity.ofLine a = .ok i ∧ Identity.ofLine b = .ok j ∧
      i.scheme = j.scheme ∧ i.host = j.host ∧ i.port = j.port ∧ i.path = j.path ∧
      (Identity.IsPlain i.params → Identity.IsPlain j.params → i.params = j.params) := by
  obtain ⟨i, hi, rfl⟩ := identityKey_eq_ok.1 ha
  obtain ⟨j, hj, hkey⟩ := identityKey_eq_ok.1 hb
  have hparts : i.parts = j.parts := by
    calc
      i.parts = Identity.Parts.ofKey i.key.toList :=
        (Identity.isDelimited_of_ofLine hi).ofKey_key.symm
      _ = Identity.Parts.ofKey j.key.toList := by rw [hkey]
      _ = j.parts := (Identity.isDelimited_of_ofLine hj).ofKey_key
  obtain ⟨hscheme, hhost, hport, hpath, hparams⟩ := Identity.Parts.mk.inj hparts
  exact ⟨i, j, hi, hj, String.toList_inj.1 hscheme, String.toList_inj.1 hhost,
    Identity.portText_injective hport, String.toList_inj.1 hpath,
    fun hpi hpj => Identity.params_eq_of_paramsText_eq hpi hpj hparams⟩

/-- Two spellings of a link, with plain parameters in both. -/
theorem agree_of_identityKey_eq_spellings :
    identityKey "vless://u@A.com:1?b=2&a=1#x" = .ok "vless://a.com:1?a=1&b=2" ∧
      identityKey "vless://v@a.com:1/?a=1&b=2&a=3" = .ok "vless://a.com:1?a=1&b=2" ∧
      ∃ i j, Identity.ofLine "vless://u@A.com:1?b=2&a=1#x" = .ok i ∧
        Identity.ofLine "vless://v@a.com:1/?a=1&b=2&a=3" = .ok j ∧
        i.scheme = j.scheme ∧ i.host = j.host ∧ i.port = j.port ∧ i.path = j.path ∧
        i.params = j.params := by
  have ha : identityKey "vless://u@A.com:1?b=2&a=1#x" = .ok "vless://a.com:1?a=1&b=2" := rfl
  have hb : identityKey "vless://v@a.com:1/?a=1&b=2&a=3" = .ok "vless://a.com:1?a=1&b=2" := rfl
  obtain ⟨i, j, hi, hj, hscheme, hhost, hport, hpath, hparams⟩ := agree_of_identityKey_eq ha hb
  have hplain {line : String} {id : Identity} (h : Identity.ofLine line = .ok id)
      (hline : Identity.ofLine line =
        .ok ⟨"vless", "a.com", some 1, "", .ofList [("a", "1"), ("b", "2")]⟩) :
      Identity.IsPlain id.params := by
    obtain rfl := Except.ok.inj (hline.symm.trans h)
    decide
  exact ⟨ha, hb, i, j, hi, hj, hscheme, hhost, hport, hpath,
    hparams (hplain hi rfl) (hplain hj rfl)⟩

/-- A value that holds the marks of a parameter gives a link the key of another one. -/
theorem identityKey_merges_glued_value :
    Identity.ofLine "vless://u@a.com:1?a=1%26b%3D2" =
        .ok ⟨"vless", "a.com", some 1, "", .ofList [("a", "1&b=2")]⟩ ∧
      Identity.ofLine "vless://u@a.com:1?a=1&b=2" =
        .ok ⟨"vless", "a.com", some 1, "", .ofList [("a", "1"), ("b", "2")]⟩ ∧
      identityKey "vless://u@a.com:1?a=1%26b%3D2" = .ok "vless://a.com:1?a=1&b=2" ∧
      identityKey "vless://u@a.com:1?a=1&b=2" = .ok "vless://a.com:1?a=1&b=2" ∧
      Table.ofList [("a", "1&b=2")] ≠ Table.ofList [("a", "1"), ("b", "2")] := by
  refine ⟨rfl, rfl, rfl, rfl, ?_⟩
  intro h
  have hget := congrArg (fun params : Params => params.get? "b") h
  cases hget

end LinkSieve.Link
