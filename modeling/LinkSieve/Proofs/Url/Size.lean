import LinkSieve.Proofs.Address.Size
import LinkSieve.Proofs.Text.Lowercase
import LinkSieve.Proofs.Text.Size
import LinkSieve.Proofs.Url.Escaping
import Mathlib.Algebra.BigOperators.Ring.List
import Mathlib.Algebra.Order.BigOperators.Group.List
import Mathlib.Algebra.Order.Ring.Nat

/-!
# Sizes of the parts of a URL

How large the parts of a URL are at most, in terms of the text that the URL is read from. The text
has room for its parts as they were before they were escaped, and for the marks between them;
escaping makes each of them at most three times as large. A query is read and written again: what
its names and values stand for is no larger than the query, and the pairs of an unchanged query
weigh what is written of them.
-/

namespace LinkSieve

namespace Url

open Text.Utf8 (size)

/-- A name or a value is no larger than the text it is read from. -/
theorem size_decodeForm_le (cs : List Char) : size (decodeForm cs) ≤ size cs := by
  calc
    size (decodeForm cs) ≤ size (Text.Label.spaced cs) := Text.Percent.size_decodeLossy_decode_le _
    _ = size cs := Text.Utf8.size_replace (by decide) (by decide) cs

theorem size_encodeForm_le (cs : List Char) : size (encodeForm cs) ≤ 3 * size cs := by
  rw [encodeForm, Text.Utf8.size_replace (by decide) (by decide)]
  exact Text.Percent.size_encode_le _ cs

theorem size_encodeForm_of_sublist {as bs : List Char} (h : as.Sublist bs) :
    size (encodeForm as) ≤ size (encodeForm bs) :=
  Text.Utf8.size_le_of_sublist ((Text.Percent.encode_sublist h).map _)

/-- The size of an optional part with its mark. -/
def markedSize (part : Option (List Char)) : Nat :=
  (part.map fun cs => size cs + 1).getD 0

/-- The size of pairs as a query, with a mark before each. -/
def weight (pairs : List (String × String)) : Nat :=
  (pairs.map fun pair => size (pairText pair) + 1).sum

theorem size_pairsText {pairs : List (String × String)} (h : pairs ≠ []) :
    size (pairsText pairs) + 1 = weight pairs := by
  rw [pairsText, Text.Utf8.size_intercalate (by decide) (by simpa using h), List.map_map]
  rfl

theorem size_pairText (name value : String) :
    size (pairText (name, value)) =
      size (encodeForm name.toList) + 1 + size (encodeForm value.toList) := by
  rw [pairText, Text.Utf8.size_append, Text.Utf8.size_cons_of_ascii (by decide), Nat.add_assoc,
    Nat.add_comm 1]

/-- A pair that is written again is at most three times as large as the piece it is read from, but
for an equals sign that the piece need not have. -/
theorem size_pairText_readPair_le (piece : List Char) :
    size (pairText (readPair piece)) ≤ 3 * size piece + 1 := by
  have hform (cs : List Char) :
      size (encodeForm (String.ofList (decodeForm cs)).toList) ≤ 3 * size cs := by
    rw [String.toList_ofList]
    have hdecode := size_decodeForm_le cs
    have hencode := size_encodeForm_le (decodeForm cs)
    omega
  rw [readPair]
  by_cases hmem : '=' ∈ piece
  · obtain ⟨name, value, rfl, hname⟩ := List.eq_append_cons_of_mem hmem
    have hvalue := hform value
    have hname' := hform name
    simp only [Text.cutOption_append_cons hname, Option.getD_some, size_pairText]
    rw [Text.Utf8.size_append, Text.Utf8.size_cons]
    omega
  · have hname := hform piece
    have hvalue := hform []
    simp only [Text.cutOption_of_not_mem hmem, Option.getD_none, size_pairText]
    rw [Text.Utf8.size_nil] at hvalue
    omega

/-- The pairs of a query are written at most three times as large as the query they are read from,
with its mark. -/
theorem weight_readPairs_le (query : List Char) :
    weight (readPairs query) ≤ 3 * (size query + 1) := by
  have hpiece (piece : List Char) :
      size (pairText (readPair piece)) + 1 ≤ 3 * (size piece + 1) := by
    have hpair := size_pairText_readPair_le piece
    omega
  calc
    weight (readPairs query) ≤
        ((query.splitOn '&').map fun piece => size (pairText (readPair piece)) + 1).sum := by
      rw [weight, readPairs, List.map_map]
      exact (List.filter_sublist.map _).sum_le_sum fun _ _ => Nat.zero_le _
    _ ≤ ((query.splitOn '&').map fun piece => 3 * (size piece + 1)).sum :=
      List.sum_le_sum fun piece _ => hpiece piece
    _ = 3 * (size query + 1) := by
      rw [List.sum_map_mul_left, Text.Utf8.size_splitOn (by decide)]

end Url

namespace Query

open Url (weight)

theorem perm_of_valuesOf_eq {as bs : List (String × String)}
    (h : ∀ n, valuesOf n as = valuesOf n bs) : as.Perm bs := by
  rw [List.perm_iff_count]
  rintro ⟨name, value⟩
  have hcount (pairs : List (String × String)) :
      pairs.count (name, value) = (valuesOf name pairs).count value := by
    induction pairs with
    | nil => rfl
    | cons pair pairs ih =>
        obtain ⟨n, v⟩ := pair
        rw [valuesOf_cons, List.count_cons, ih]
        by_cases hname : n = name
        · subst hname
          simp [List.count_cons, Prod.ext_iff]
        · simp [hname]
  rw [hcount, hcount, h]

theorem weight_of_valuesOf_eq {as bs : List (String × String)}
    (h : ∀ n, valuesOf n as = valuesOf n bs) : weight as = weight bs :=
  ((perm_of_valuesOf_eq h).map _).sum_nat

theorem weight_append (as bs : List (String × String)) :
    weight (as ++ bs) = weight as + weight bs := by
  rw [weight, List.map_append, List.sum_append_nat, weight, weight]

/-- Parameters weigh as much as the pairs they are made from. -/
theorem weight_pairs_ofPairs (pairs : List (String × String)) :
    weight (ofPairs pairs).pairs = weight pairs := by
  apply weight_of_valuesOf_eq
  intro n
  rw [valuesOf_pairs, get?_ofPairs, entryOf]
  split
  · rename_i hempty
    rw [List.isEmpty_iff.1 hempty, Option.getD_none]
  · rw [Option.getD_some]

theorem valuesOf_map (name n : String) (values : List String) :
    valuesOf n (values.map (name, ·)) = if n = name then values else [] := by
  by_cases hn : n = name
  · subst hn
    simp [valuesOf, List.filter_map, Function.comp_def]
  · simp [valuesOf, List.filter_map, Function.comp_def, hn, Ne.symm hn]

/-- What a name weighs and what the other names weigh. -/
theorem weight_pairs_erase (q : Query) (name : String) :
    weight q.pairs =
      weight (((q.get? name).getD []).map (name, ·)) + weight (pairs (q.erase name)) := by
  rw [← weight_append]
  apply weight_of_valuesOf_eq
  intro n
  rw [valuesOf_append, valuesOf_map, valuesOf_pairs, valuesOf_pairs, Table.get?_erase]
  by_cases hn : n = name
  · simp [hn]
  · simp [hn]

theorem weight_pairs_erase_le (q : Query) (name : String) :
    weight (pairs (q.erase name)) ≤ weight q.pairs :=
  weight_pairs_erase q name ▸ Nat.le_add_left _ _

theorem weight_pairs_insert (q : Query) (name : String) (values : List String) :
    weight (pairs (q.insert name values)) =
      weight (values.map (name, ·)) + weight (pairs (q.erase name)) := by
  rw [← weight_append]
  apply weight_of_valuesOf_eq
  intro n
  rw [valuesOf_append, valuesOf_map, valuesOf_pairs, valuesOf_pairs, Table.get?_erase,
    Table.get?_insert]
  by_cases hn : n = name
  · simp [hn]
  · simp [hn]

/-- The parameters of a URL weigh at most three times as much as the query they are read from. -/
theorem weight_pairs_ofUrl_le {url : Url} {query : Option (List Char)}
    (hquery : url.query =
      query.map fun cs => String.ofList (Text.Percent.encode (Url.Escaped.inQuery false) cs)) :
    weight (ofUrl url).pairs ≤ 3 * Url.markedSize query := by
  rw [ofUrl, weight_pairs_ofPairs, Url.queryPairs, hquery]
  cases query with
  | none => exact Nat.le_refl 0
  | some cs =>
      rw [Option.map_some, Option.getD_some, String.toList_ofList, Url.readPairs_encode]
      exact Url.weight_readPairs_le cs

end Query

namespace Url

open Text.Utf8 (size)

theorem size_cutOption (sep : Char) (hsep : sep.toNat < 0x80) (cs : List Char) :
    size cs = size (Text.cutOption sep cs).1 + markedSize (Text.cutOption sep cs).2 := by
  by_cases hmem : sep ∈ cs
  · obtain ⟨front, back, rfl, hfront⟩ := List.eq_append_cons_of_mem hmem
    rw [Text.cutOption_append_cons hfront, Text.Utf8.size_append,
      Text.Utf8.size_cons_of_ascii hsep]
    rfl
  · rw [Text.cutOption_of_not_mem hmem]
    rfl

theorem size_cutTail (cs : List Char) :
    size cs = size (cutTail cs).1 + markedSize (cutTail cs).2.1 + markedSize (cutTail cs).2.2 := by
  have hfragment := size_cutOption '#' (by decide) cs
  have hquery := size_cutOption '?' (by decide) (Text.cutOption '#' cs).1
  rw [hfragment, hquery]
  rfl

/-- A port takes at least a digit of the text it is read from. -/
theorem size_of_readPort {n : Nat} {cs more : List Char}
    (h : Authority.readPort none cs = .ok (some n, more)) : size more + 1 ≤ size cs := by
  have hcut : cs.takeWhile (Decimal.isDigit 10) ++ cs.dropWhile (Decimal.isDigit 10) = cs :=
    List.takeWhile_append_dropWhile
  rw [Authority.readPort] at h
  split at h
  · cases h
  · simp only [Except.ok.injEq, Prod.mk.injEq] at h
    obtain ⟨hport, rfl⟩ := h
    split at hport
    · cases hport
    · rename_i hdigits
      rw [Bool.or_eq_true, not_or, Bool.not_eq_true] at hdigits
      have hpos : 0 < size (cs.takeWhile (Decimal.isDigit 10)) :=
        Text.Utf8.size_pos (List.isEmpty_eq_false_iff.1 hdigits.1)
      rw [← congrArg size hcut, Text.Utf8.size_append]
      omega

/-- What the server of a URL is read from. -/
theorem exists_of_readServer {h : Host} {n : Nat} {cs more : List Char}
    (hread : Authority.readServer false none cs = .ok (some h, some n, more)) :
    ∃ host, Authority.readHost false host = .ok (some h) ∧
      size host + 2 + size more ≤ size cs := by
  have hcut := takeHost_append false cs
  rw [Authority.readServer] at hread
  obtain ⟨found, hhost, hread⟩ := Outcome.bind_eq_ok.1 hread
  split at hread
  · rename_i digits hafter
    obtain ⟨-, hread⟩ := Outcome.check_eq_ok.1 hread
    obtain ⟨⟨port, more'⟩, hport, hread⟩ := Outcome.bind_eq_ok.1 hread
    cases hread
    have hmore := size_of_readPort hport
    refine ⟨_, hhost, ?_⟩
    rw [← congrArg size hcut, Text.Utf8.size_append, hafter,
      Text.Utf8.size_cons_of_ascii (by decide)]
    omega
  · cases hread

/-- What the authority of a URL is read from. -/
theorem exists_of_readAuthority {a : Authority} {h : Host} {n : Nat} {last : Bool}
    {cs more : List Char} (hread : Authority.read false none last cs = .ok (a, more))
    (hhost : a.host = some h) (hport : a.port = some n) :
    ∃ userinfo host, a = ⟨(Authority.readUserinfo userinfo).1, (Authority.readUserinfo userinfo).2,
        some h, some n⟩ ∧ Authority.readHost false host = .ok (some h) ∧
      size userinfo + size host + 2 + size more ≤ size cs := by
  rw [Authority.read] at hread
  obtain ⟨-, hread⟩ := Outcome.check_eq_ok.1 hread
  obtain ⟨⟨host, port, more'⟩, hserver, hread⟩ := Outcome.bind_eq_ok.1 hread
  obtain ⟨-, hread⟩ := Outcome.check_eq_ok.1 hread
  cases hread
  obtain rfl : host = some h := hhost
  obtain rfl : port = some n := hport
  obtain ⟨text, htext, hsize⟩ := exists_of_readServer hserver
  refine ⟨_, text, rfl, htext, ?_⟩
  cases hcut : Text.cutLast? '@' cs with
  | none =>
      rw [hcut] at hsize
      simp only [Option.getD_none, Text.Utf8.size_nil] at hsize ⊢
      omega
  | some found =>
      obtain ⟨before, after⟩ := found
      rw [hcut] at hsize
      rw [Text.cutLast?_eq_some hcut, Text.Utf8.size_append, Text.Utf8.size_cons]
      simp only [Option.getD_some] at hsize ⊢
      omega

/-- The parts of the text that a URL with a server is read from, as they are before anything in them
is escaped. -/
structure RawParts where
  userinfo : List Char
  host : List Char
  path : List Char
  query : Option (List Char)
  fragment : Option (List Char)

namespace RawParts

/-- The size of all parts, with the marks before the query and the fragment. -/
def extent (raw : RawParts) : Nat :=
  size raw.userinfo + size raw.host + size raw.path + markedSize raw.query +
    markedSize raw.fragment

/-- Under a scheme without a meaning of its own, a URL takes each of its parts from the part of the
text at the same place. -/
structure IsReadAs (raw : RawParts) (url : Url) : Prop where
  username : url.username = String.ofList (Authority.readUserinfo raw.userinfo).1
  password : url.password = (Authority.readUserinfo raw.userinfo).2.map String.ofList
  host : Authority.readHost false raw.host = .ok url.host
  path : url.path = String.ofList (otherPath raw.path)
  query : url.query =
    raw.query.map fun cs => String.ofList (Text.Percent.encode (Escaped.inQuery false) cs)
  fragment : url.fragment =
    raw.fragment.map fun cs => String.ofList (Text.Percent.encode Escaped.inFragment cs)

end RawParts

section Sources

variable {scheme cs : List Char} {url : Url} {h : Host} {n : Nat}

theorem exists_of_readServed (hread : readServed scheme none cs = .ok url)
    (hhost : url.host = some h) (hport : url.port = some n) :
    ∃ raw : RawParts, raw.IsReadAs url ∧ raw.extent + 2 ≤ size cs := by
  have hcut : cs.takeWhile (!endsAuthority false ·) ++ cs.dropWhile (!endsAuthority false ·) = cs :=
    List.takeWhile_append_dropWhile
  rw [readServed_none] at hread
  generalize cs.takeWhile (!endsAuthority false ·) = front at hcut hread
  generalize cs.dropWhile (!endsAuthority false ·) = back at hcut hread
  obtain ⟨⟨a, more⟩, hauthority, hread⟩ := Outcome.bind_eq_ok.1 hread
  cases hread
  obtain ⟨userinfo, host, rfl, hread, hsize⟩ := exists_of_readAuthority hauthority hhost hport
  have htail := size_cutTail (more ++ back)
  rw [Text.Utf8.size_append] at htail
  refine ⟨⟨userinfo, host, (cutTail (more ++ back)).1, (cutTail (more ++ back)).2.1,
    (cutTail (more ++ back)).2.2⟩, ⟨rfl, rfl, hread, rfl, rfl, rfl⟩, ?_⟩
  simp only [RawParts.extent]
  rw [← hcut, Text.Utf8.size_append]
  omega

theorem size_of_cutScheme? {rest : List Char} (h : cutScheme? cs = some (scheme, rest)) :
    size cs = size scheme + 1 + size rest := by
  have hcut : cs.takeWhile isSchemeChar ++ cs.dropWhile isSchemeChar = cs :=
    List.takeWhile_append_dropWhile
  unfold cutScheme? at h
  split at h
  · split at h
    · cases h
    split at h
    · rename_i hback
      obtain ⟨rfl, rfl⟩ := Prod.mk.inj (Option.some.inj h)
      rw [← congrArg size hcut, hback, Text.Utf8.size_append,
        Text.Utf8.size_cons_of_ascii (by decide),
        Text.Utf8.size_map fun c hc => Text.ascii_of_lowerAscii_ne hc]
      omega
    · cases h
  · cases h

theorem clean_sublist (cs : List Char) : (clean cs).Sublist cs :=
  List.filter_sublist.trans (Text.trimBy_sublist _ cs)

/-- A URL with a server takes its parts from a text that has room for them and for the marks between
them. -/
theorem exists_rawParts {text : String} (hread : Url.read text = .ok url)
    (hscheme : IsOpaqueScheme url.scheme) (hhost : url.host = some h) (hport : url.port = some n) :
    ∃ raw : RawParts, raw.IsReadAs url ∧
      size url.scheme.toList + raw.extent + 5 ≤ size text.toList := by
  obtain ⟨rest, hcut, hserved⟩ := readServed_of_read hread hscheme.kind (by rw [hhost]; simp)
  obtain ⟨raw, hraw, hsize⟩ := exists_of_readServed hserved hhost hport
  have hclean := Text.Utf8.size_le_of_sublist (clean_sublist text.toList)
  refine ⟨raw, hraw, ?_⟩
  rw [size_of_cutScheme? hcut, Text.Utf8.size_cons_of_ascii (by decide),
    Text.Utf8.size_cons_of_ascii (by decide)] at hclean
  omega

end Sources

namespace Path

/-- The size of segments as a path. -/
def room (segments : List (List Char)) : Nat :=
  (segments.map fun segment => size segment + 1).sum

theorem room_cons (segment : List Char) (segments : List (List Char)) :
    room (segment :: segments) = size segment + 1 + room segments := by
  rw [room, List.map_cons, List.sum_cons, room]

theorem room_reverse (segments : List (List Char)) : room segments.reverse = room segments := by
  rw [room, List.map_reverse, List.sum_reverse, room]

theorem room_parent_le (done : List (List Char)) : room (parent done) ≤ room done := by
  cases done with
  | nil => exact Nat.le_refl _
  | cons last before =>
      rw [parent]
      split
      · exact Nat.le_refl _
      · exact room_cons last before ▸ Nat.le_add_left _ _

/-- Dot segments take away and add nothing but the empty segment that stands for them at the end. -/
theorem room_resolve_le (done segments : List (List Char)) :
    room (resolve done segments) ≤ room done + room segments := by
  have hempty : size ([] : List Char) = 0 := rfl
  induction segments generalizing done with
  | nil => exact Nat.le_of_eq (room_reverse done)
  | cons segment rest ih =>
      have hparent := room_parent_le done
      rw [room_cons]
      cases rest with
      | nil =>
          rw [resolve]
          split
          · rw [room_reverse, room_cons, hempty]
            omega
          split
          · rw [room_reverse, room_cons, hempty]
            omega
          · rw [room_reverse, room_cons]
            omega
      | cons next rest =>
          rw [resolve]
          · split
            · have hrest := ih (parent done)
              omega
            split
            · have hrest := ih done
              omega
            · have hrest := ih (segment :: done)
              rw [room_cons segment] at hrest
              omega
          · exact List.cons_ne_nil _ _

theorem size_normalize_le (cs : List Char) : size (normalize cs) ≤ 3 * size cs + 1 := by
  have hne := resolve_ne_nil []
    (List.splitOn_ne_nil '/' (Text.Percent.encode Escaped.inPath cs))
  have hresolve := room_resolve_le [] ((Text.Percent.encode Escaped.inPath cs).splitOn '/')
  have hsegments : room ((Text.Percent.encode Escaped.inPath cs).splitOn '/') =
      size (Text.Percent.encode Escaped.inPath cs) + 1 := Text.Utf8.size_splitOn (by decide) _
  have hencode := Text.Percent.size_encode_le Escaped.inPath cs
  have hnil : room [] = 0 := rfl
  have hjoin : size (List.intercalate ['/']
      (resolve [] ((Text.Percent.encode Escaped.inPath cs).splitOn '/'))) + 1 =
        room (resolve [] ((Text.Percent.encode Escaped.inPath cs).splitOn '/')) :=
    Text.Utf8.size_intercalate (by decide) hne
  rw [normalize, ofSegments, Text.Utf8.size_cons_of_ascii (by decide)]
  omega

theorem size_otherPath_le (cs : List Char) : size (otherPath cs) ≤ 3 * size cs + 1 := by
  unfold otherPath
  split
  · exact Nat.zero_le _
  · rename_i rest
    have hnormalize := size_normalize_le rest
    rw [Text.Utf8.size_cons]
    omega
  · exact size_normalize_le _

end Path

theorem eq_encode_of_readOpaque {cs : List Char} {text : String}
    (hread : Host.readOpaque cs = .ok (.name text)) :
    text.toList = Text.Percent.encode Escaped.always cs := by
  unfold Host.readOpaque at hread
  split at hread
  · rw [Host.readBracketed] at hread
    split at hread
    · split at hread
      · cases hread
      · cases hread
    · cases hread
  · split at hread
    · cases hread
    · cases hread
      exact String.toList_ofList

/-- A host is written in brackets, with the longest address in them, or as large as its escapes make
it. -/
theorem Host.Writes.size_le {cs raw : List Char} {h : Host} (hw : Host.Writes cs h)
    (hread : Authority.readHost false raw = .ok (some h)) : size cs ≤ 3 * size raw + 41 := by
  cases hw with
  | name text =>
      have htext := eq_encode_of_readOpaque (readOpaque_of_readHost hread).2
      have hencode := Text.Percent.size_encode_le Escaped.always raw
      rw [htext]
      omega
  | ipv6 ip =>
      have htext := ip.size_text_le
      have hclose : size [']'] = 1 := rfl
      rw [Text.Utf8.size_cons_of_ascii (by decide), Text.Utf8.size_append, hclose]
      omega

theorem size_marked {mark : Char} (hmark : mark.toNat < 0x80) (part : Option String) :
    size (marked mark part) = markedSize (part.map String.toList) := by
  cases part with
  | none => rfl
  | some text =>
      rw [marked, Text.Utf8.size_cons_of_ascii hmark]
      rfl

theorem markedSize_filter_le {α : Type} (f : α → List Char) (p : α → Bool) (part : Option α) :
    markedSize ((part.filter p).map f) ≤ markedSize (part.map f) := by
  cases part with
  | none => exact Nat.le_refl _
  | some text =>
      rw [Option.filter_some]
      split
      · exact Nat.le_refl _
      · exact Nat.zero_le _

/-- A part with its mark is escaped at most threefold. -/
theorem markedSize_encode_le (escaped : Char → Bool) (part : Option (List Char)) :
    markedSize (part.map (Text.Percent.encode escaped)) ≤ 3 * markedSize part := by
  cases part with
  | none => exact Nat.le_refl _
  | some cs =>
      have hencode := Text.Percent.size_encode_le escaped cs
      simp only [markedSize, Option.map_some, Option.getD_some]
      omega

theorem Authority.size_userinfoText (a : Authority) :
    size a.userinfoText = size a.username + markedSize a.password := by
  rw [userinfoText]
  cases a.password with
  | none => rfl
  | some password =>
      rw [Text.Utf8.size_append, Text.Utf8.size_cons_of_ascii (by decide)]
      rfl

namespace RawParts.IsReadAs

variable {raw : RawParts} {url : Url}

/-- The user name and the password of a URL, as they are before they are escaped. -/
theorem exists_userinfo (h : raw.IsReadAs url) : ∃ username password,
    size raw.userinfo = size username + markedSize password ∧
      url.username = String.ofList (Text.Percent.encode Escaped.inUserinfo username) ∧
      url.password = (password.filter (!·.isEmpty)).map fun cs =>
        String.ofList (Text.Percent.encode Escaped.inUserinfo cs) := by
  refine ⟨_, _, size_cutOption ':' (by decide) raw.userinfo, ?_⟩
  rw [h.username, h.password, Authority.readUserinfo, Text.cutOption]
  cases Text.cutFirst? ':' raw.userinfo with
  | none => exact ⟨rfl, rfl⟩
  | some found =>
      obtain ⟨username, password⟩ := found
      refine ⟨rfl, ?_⟩
      cases password with
      | nil => rfl
      | cons c password => rfl

theorem size_userinfo_le (h : raw.IsReadAs url) :
    size url.username.toList + markedSize (url.password.map String.toList) ≤
      3 * size raw.userinfo := by
  obtain ⟨username, password, hsize, husername, hpassword⟩ := h.exists_userinfo
  have hencode := Text.Percent.size_encode_le Escaped.inUserinfo username
  have hfilter :=
    markedSize_filter_le (Text.Percent.encode Escaped.inUserinfo) (!·.isEmpty) password
  have hmarked := markedSize_encode_le Escaped.inUserinfo password
  have htext : url.password.map String.toList =
      (password.filter (!·.isEmpty)).map (Text.Percent.encode Escaped.inUserinfo) := by
    rw [hpassword, Option.map_map]
    exact congrArg (Option.map · _) (funext fun _ => String.toList_ofList)
  rw [husername, String.toList_ofList, htext]
  omega

theorem size_path_le (h : raw.IsReadAs url) : size url.path.toList ≤ 3 * size raw.path + 1 := by
  rw [h.path, String.toList_ofList]
  exact Path.size_otherPath_le raw.path

theorem size_fragment_le (h : raw.IsReadAs url) :
    size (marked '#' url.fragment) ≤ 3 * markedSize raw.fragment := by
  have htext : url.fragment.map String.toList =
      raw.fragment.map (Text.Percent.encode Escaped.inFragment) := by
    rw [h.fragment, Option.map_map]
    exact congrArg (Option.map · _) (funext fun _ => String.toList_ofList)
  rw [size_marked (by decide), htext]
  exact markedSize_encode_le Escaped.inFragment raw.fragment

end RawParts.IsReadAs

end Url

end LinkSieve
