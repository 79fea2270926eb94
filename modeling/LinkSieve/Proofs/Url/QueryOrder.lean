import LinkSieve.Proofs.Url.Size

/-!
# Queries in another order

A query is a list of pieces between ampersands. What is read from it are the values of each name, so
its pieces may change places as long as those of one name keep their order. The other parts of a
URL do not depend on its query at all, and neither does whether a text is a URL.
-/

namespace LinkSieve

namespace Url

/-- The name of the pair that a piece of a query stands for. An empty piece stands for none. -/
def pieceName? (piece : List Char) : Option String :=
  if piece.isEmpty then none else some (readPair piece).1

theorem pieceName?_eq_some {piece : List Char} {name : String} :
    pieceName? piece = some name ↔ piece.isEmpty = false ∧ (readPair piece).1 = name := by
  cases hempty : piece.isEmpty <;> simp [pieceName?, hempty]

/-- A piece behind the last ampersand of a query adds its pair at the end. -/
theorem readPairs_append_cons (query : List Char) {piece : List Char} (hne : piece.isEmpty = false)
    (hpiece : '&' ∉ piece) :
    readPairs (query ++ '&' :: piece) = readPairs query ++ [readPair piece] := by
  rw [readPairs, Text.splitOn_append_cons, Text.splitOn_of_not_mem hpiece, List.filter_append,
    List.map_append, List.filter_singleton, hne]
  rfl

/-- Pieces of a query in another order, which is still the same among those of one name. -/
structure Reorders (pieces reordered : List (List Char)) : Prop where
  perm : reordered.Perm pieces
  order : ∀ name, reordered.filter (pieceName? · = some name) =
    pieces.filter (pieceName? · = some name)

theorem Reorders.trans {as bs cs : List (List Char)} (hab : Reorders as bs) (hbc : Reorders bs cs) :
    Reorders as cs :=
  ⟨hbc.perm.trans hab.perm, fun name => (hbc.order name).trans (hab.order name)⟩

/-- Two neighbours may change places unless they stand for pairs of one name. -/
theorem Reorders.swap {a b : List Char} (h : pieceName? a = none ∨ pieceName? b ≠ pieceName? a)
    (before after : List (List Char)) :
    Reorders (before ++ a :: b :: after) (before ++ b :: a :: after) := by
  refine ⟨(List.Perm.swap a b after).append_left before, fun name => ?_⟩
  rw [List.filter_append, List.filter_append]
  congr 1
  by_cases ha : pieceName? a = some name
  · have hb : pieceName? b ≠ some name := by
      rcases h with hnone | hne
      · rw [ha] at hnone
        cases hnone
      · rwa [ha] at hne
    simp [ha, hb]
  · simp [ha, List.filter_cons]

theorem valuesOf_readPairs (name : String) (query : List Char) :
    Query.valuesOf name (readPairs query) =
      ((query.splitOn '&').filter (pieceName? · = some name)).map fun piece =>
        (readPair piece).2 := by
  have hname (piece : List Char) : (decide ((readPair piece).1 = name) && !piece.isEmpty) =
      decide (pieceName? piece = some name) := by
    cases hempty : piece.isEmpty <;> simp [pieceName?, hempty]
  rw [Query.valuesOf, readPairs, List.filter_map, List.map_map, List.filter_filter]
  simp only [Function.comp_apply, hname]
  rfl

end Url

namespace Query

theorem ofPairs_congr {as bs : List (String × String)}
    (h : ∀ name, valuesOf name as = valuesOf name bs) : ofPairs as = ofPairs bs := by
  apply Table.ext_get?
  intro name
  rw [get?_ofPairs, get?_ofPairs, h name]

/-- The parameters of a query do not depend on the order of its pieces, but among those of one
name. -/
theorem ofPairs_readPairs_congr {query reordered : List Char}
    (h : Url.Reorders (query.splitOn '&') (reordered.splitOn '&')) :
    ofPairs (Url.readPairs reordered) = ofPairs (Url.readPairs query) := by
  apply ofPairs_congr
  intro name
  rw [Url.valuesOf_readPairs, Url.valuesOf_readPairs, h.order name]

end Query

namespace Url

open Text.Utf8 (size)

section Reorders

variable {query reordered : List Char}

theorem Reorders.mem (h : Reorders (query.splitOn '&') (reordered.splitOn '&')) {c : Char}
    (hc : c ∈ reordered) : c = '&' ∨ c ∈ query := by
  rcases Text.exists_mem_splitOn hc with heq | ⟨piece, hpiece, hc⟩
  · exact .inl heq
  · exact .inr ((Text.mem_splitOn (h.perm.mem_iff.1 hpiece)).2 c hc)

theorem Reorders.size_eq (h : Reorders (query.splitOn '&') (reordered.splitOn '&')) :
    size reordered = size query := by
  have hsum := (h.perm.map fun piece => size piece + 1).sum_eq
  rw [Text.Utf8.size_splitOn (by decide), Text.Utf8.size_splitOn (by decide)] at hsum
  exact Nat.succ.inj hsum

end Reorders

/-- A URL with another query. -/
def withQuery (url : Url) (query : List Char) : Url :=
  { url with query := some (String.ofList (Text.Percent.encode (Escaped.inQuery false) query)) }

theorem queryPairs_withQuery (url : Url) (query : List Char) :
    (url.withQuery query).queryPairs = readPairs query := by
  rw [queryPairs, withQuery, Option.getD_some, String.toList_ofList, readPairs_encode]

section Authority

variable {web last : Bool} {implied port : Option Nat} {host : Option Host} {cs more : List Char}

theorem suffix_of_readPort (h : Authority.readPort implied cs = .ok (port, more)) :
    more <:+ cs := by
  rw [Authority.readPort] at h
  split at h
  · cases h
  · cases h
    exact List.dropWhile_suffix _

theorem suffix_of_readServer (h : Authority.readServer web implied cs = .ok (host, port, more)) :
    more <:+ cs := by
  have hafter : (Authority.takeHost false cs).2 <:+ cs := ⟨_, takeHost_append false cs⟩
  rw [Authority.readServer] at h
  obtain ⟨found, -, h⟩ := Outcome.bind_eq_ok.1 h
  split at h
  · rename_i digits hdigits
    obtain ⟨-, h⟩ := Outcome.check_eq_ok.1 h
    obtain ⟨⟨port', more'⟩, hport, h⟩ := Outcome.bind_eq_ok.1 h
    cases h
    rw [hdigits] at hafter
    exact (suffix_of_readPort hport).trans ((List.suffix_cons ':' digits).trans hafter)
  · cases h
    exact hafter

/-- What an authority does not take is an end of its text. -/
theorem Authority.suffix_of_read {a : Authority}
    (h : Authority.read web implied last cs = .ok (a, more)) : more <:+ cs := by
  rw [Authority.read] at h
  obtain ⟨-, h⟩ := Outcome.check_eq_ok.1 h
  obtain ⟨⟨host, port, more'⟩, hserver, h⟩ := Outcome.bind_eq_ok.1 h
  obtain ⟨-, h⟩ := Outcome.check_eq_ok.1 h
  cases h
  refine (suffix_of_readServer hserver).trans ?_
  cases hcut : Text.cutLast? '@' cs with
  | none => exact List.suffix_rfl
  | some found =>
      obtain ⟨before, after⟩ := found
      rw [Text.cutLast?_eq_some hcut]
      exact (List.suffix_cons '@' after).trans (List.suffix_append before _)

end Authority

/-- A text is cut into a front, a query and a tail: the front ends at the first question mark, and
the tail starts with the first number sign if there is one. The query holds neither blanks nor
control characters. -/
structure IsCut (front query tail : List Char) : Prop where
  front : '?' ∉ front ∧ '#' ∉ front
  query : ∀ c ∈ query, 0x20 < c.toNat ∧ c ≠ '#'
  tail : ∀ c, tail.head? = some c → c = '#'

section Cut

variable {front query tail : List Char}

theorem IsCut.withQuery (h : IsCut front query tail) {other : List Char}
    (hother : ∀ c ∈ other, 0x20 < c.toNat ∧ c ≠ '#') : IsCut front other tail :=
  ⟨h.front, hother, h.tail⟩

theorem IsCut.cutTail (h : IsCut front query tail) :
    cutTail (front ++ '?' :: query ++ tail) = (front, some query, (Text.cutOption '#' tail).2) := by
  have hbody : '#' ∉ front ++ '?' :: query := by
    rw [List.mem_append, List.mem_cons]
    rintro (hmem | hmem | hmem)
    · exact h.front.2 hmem
    · exact absurd hmem (by decide)
    · exact (h.query _ hmem).2 rfl
  have htail : (Text.cutOption '#' tail).1 = [] := by
    cases tail with
    | nil => rfl
    | cons c tail =>
        obtain rfl := h.tail c rfl
        rw [← List.nil_append ('#' :: tail), Text.cutOption_append_cons List.not_mem_nil]
  simp only [Url.cutTail, Text.cutOption_append hbody, htail, List.append_nil,
    Text.cutOption_append_cons h.front.1]

/-- Behind a scheme and two slashes, a query goes into the URL as it is, and nothing else depends on
it. -/
theorem IsCut.readServed (h : IsCut front query tail) (scheme : List Char) :
    readServed scheme none (front ++ '?' :: query ++ tail) =
      (readServed scheme none (front ++ '?' :: tail)).map (·.withQuery query) := by
  have htake (rest : List Char) : (front ++ '?' :: rest).takeWhile (!endsAuthority false ·) =
      front.takeWhile (!endsAuthority false ·) := Text.takeWhile_append_cons rfl front rest
  have hdrop (rest : List Char) : (front ++ '?' :: rest).dropWhile (!endsAuthority false ·) =
      front.dropWhile (!endsAuthority false ·) ++ '?' :: rest :=
    Text.dropWhile_append_cons rfl front rest
  have hback (rest : List Char) :
      (front.dropWhile (!endsAuthority false ·) ++ '?' :: rest).isEmpty = false := by simp
  rw [List.append_assoc, List.cons_append, readServed_none, readServed_none, htake, htake, hdrop,
    hdrop, hback, hback]
  cases hread : Authority.read false none false (front.takeWhile (!endsAuthority false ·)) with
  | error e => rfl
  | ok found =>
      obtain ⟨a, more⟩ := found
      have hpath {c : Char} (hc : c ∉ front) :
          c ∉ more ++ front.dropWhile (!endsAuthority false ·) := by
        rw [List.mem_append]
        rintro (hmem | hmem)
        · exact hc (List.takeWhile_subset _ ((Authority.suffix_of_read hread).subset hmem))
        · exact hc ((List.dropWhile_suffix _).subset hmem)
      have hcut : IsCut (more ++ front.dropWhile (!endsAuthority false ·)) query tail :=
        ⟨⟨hpath h.front.1, hpath h.front.2⟩, h.query, h.tail⟩
      have hfull := hcut.cutTail
      have hbare : IsCut (more ++ front.dropWhile (!endsAuthority false ·)) [] tail :=
        hcut.withQuery fun _ hc => nomatch hc
      have hempty := hbare.cutTail
      simp only [List.append_assoc, List.cons_append, List.nil_append] at hfull hempty
      simp only [Outcome.ok_bind, hfull, hempty]
      rfl

/-- A text is cleaned in two parts, before and from a character on that is neither blank nor a
control character. -/
theorem cleanEnd_append_cons (front : List Char) {c : Char} (hc : 0x20 < c.toNat)
    (back : List Char) :
    cleanEnd (front ++ c :: back) = withoutBreaks front ++ cleanEnd (c :: back) := by
  rw [cleanEnd, Text.trimEnd_append_cons (decide_eq_false (Nat.not_le.2 hc)), List.filter_append]
  rfl

/-- A query goes into a URL as it is, and nothing else depends on it. -/
theorem IsCut.read (h : IsCut front query tail) {scheme : String} (hscheme : IsOpaqueScheme scheme)
    {start : List Char} (hstart : start.map Text.lowerAscii = scheme.toList) :
    Url.read (String.ofList (start ++ "://".toList ++ front ++ '?' :: (query ++ tail))) =
      (Url.read (String.ofList (start ++ "://".toList ++ front ++ '?' :: tail))).map
        (·.withQuery query) := by
  have hquery : ∀ c ∈ '?' :: query, 0x20 < c.toNat :=
    List.forall_mem_cons.2 ⟨by decide, fun c hc => (h.query c hc).1⟩
  have hmark : cleanEnd ('?' :: tail) = '?' :: cleanEnd tail :=
    cleanEnd_append (List.forall_mem_singleton.2 (by decide)) tail
  have hclean : IsCut (withoutBreaks front) query (cleanEnd tail) := by
    refine ⟨⟨mt List.mem_of_mem_filter h.front.1, mt List.mem_of_mem_filter h.front.2⟩, h.query, ?_⟩
    intro c hc
    cases tail with
    | nil => cases hc
    | cons d tail =>
        obtain rfl := h.tail d rfl
        exact head?_cleanEnd (by decide) hc
  rw [List.append_assoc, List.append_assoc (start ++ "://".toList), read_spelled hscheme hstart,
    read_spelled hscheme hstart, cleanEnd_append_cons front (by decide),
    cleanEnd_append_cons front (by decide), ← List.cons_append, cleanEnd_append hquery, hmark,
    ← List.append_assoc]
  exact hclean.readServed scheme.toList

end Cut

end Url

end LinkSieve
