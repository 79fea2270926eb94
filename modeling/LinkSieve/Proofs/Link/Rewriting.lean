import LinkSieve.Proofs.Link.RoundTrip

/-!
# What a VLESS link passes on

The parameters of a VLESS link are the only ones that are rewritten. The canonical text holds none
of the switches that turn off the check of certificates, at most one application protocol, and
every other parameter with all of its values in their order; the names are in order, and nothing
is added. Here this is said about the pairs that are read from the text itself, so it covers names
that were escaped, and nothing can come back on the way through the text.
-/

namespace LinkSieve.Link.Vless

open Text (IsFirst)
open Query (valuesOf)

/-- The piece of a list from which its first protocol is taken: the first one between commas that
is not blank. -/
def IsFirstPiece (list : String) (piece : List Char) : Prop :=
  IsFirst (Text.trim · ≠ []) (list.toList.splitOn ',') piece

theorem firstProtocol?_eq_some_iff {list protocol : String} :
    firstProtocol? list = some protocol ↔
      ∃ piece, IsFirstPiece list piece ∧ protocol = String.ofList (Text.trim piece) := by
  have hfilled (piece : List Char) :
      ((!·.isEmpty) ∘ Text.trim) piece = true ↔ Text.trim piece ≠ [] := by
    rw [Function.comp_apply, Bool.not_eq_true', List.isEmpty_eq_false_iff]
  rw [firstProtocol?, List.find?_map, Option.map_map, Option.map_eq_some_iff]
  exact exists_congr fun piece => and_congr (Text.find?_eq_some_iff_isFirst hfilled) eq_comm

theorem get?_rewrite_of_toggle (q : Query) {name : String}
    (h : name = "allowInsecure" ∨ name = "insecure") : (rewrite q).get? name = none := by
  have hname : name ≠ "alpn" := by
    rcases h with rfl | rfl <;> decide
  rw [rewrite, get?_withOneAlpn_of_ne _ hname, get?_withoutToggles, if_pos h]

theorem get?_rewrite_of_ne (q : Query) {name : String} (hlong : name ≠ "allowInsecure")
    (hshort : name ≠ "insecure") (halpn : name ≠ "alpn") :
    (rewrite q).get? name = q.get? name := by
  rw [rewrite, get?_withOneAlpn_of_ne _ halpn, get?_withoutToggles,
    if_neg (not_or.2 ⟨hlong, hshort⟩)]

/-- What is passed on of the pairs of names and values of a query. -/
structure PassesOn (given kept : List (String × String)) : Prop where
  toggles : ∀ pair ∈ kept, pair.1 ≠ "allowInsecure" ∧ pair.1 ≠ "insecure"
  single : (valuesOf "alpn" kept).length ≤ 1
  alpn : ∀ protocol, protocol ∈ valuesOf "alpn" kept ↔
    ∃ list piece, (valuesOf "alpn" given).head? = some list ∧ IsFirstPiece list piece ∧
      protocol = String.ofList (Text.trim piece)
  others : ∀ name, name ≠ "allowInsecure" → name ≠ "insecure" → name ≠ "alpn" →
    valuesOf name kept = valuesOf name given
  sorted : kept.Pairwise fun a b => a.1 ≤ b.1

theorem valuesOf_rewrite_alpn (given : List (String × String)) :
    valuesOf "alpn" (rewrite (.ofPairs given)).pairs =
      ((valuesOf "alpn" given).head?.bind firstProtocol?).toList := by
  have hlist : ((withoutToggles (.ofPairs given)).get? "alpn").bind (·.head?) =
      (valuesOf "alpn" given).head? := by
    rw [get?_withoutToggles, if_neg (by decide), Query.get?_ofPairs]
    cases valuesOf "alpn" given with
    | nil => rfl
    | cons list lists => rfl
  rw [Query.valuesOf_pairs, rewrite, get?_withOneAlpn_alpn, hlist]
  cases (valuesOf "alpn" given).head?.bind firstProtocol? with
  | none => rfl
  | some protocol => rfl

/-- Rewriting parameters passes on what is to be passed on. -/
theorem passesOn_rewrite (given : List (String × String)) :
    PassesOn given (rewrite (.ofPairs given)).pairs where
  toggles := by
    have hnone {name : String} (h : name = "allowInsecure" ∨ name = "insecure") :
        valuesOf name (rewrite (.ofPairs given)).pairs = [] := by
      rw [Query.valuesOf_pairs, get?_rewrite_of_toggle _ h]
      rfl
    intro pair hpair
    have hmem : pair.2 ∈ valuesOf pair.1 (rewrite (.ofPairs given)).pairs :=
      List.mem_map.2 ⟨pair, List.mem_filter.2 ⟨hpair, decide_eq_true rfl⟩, rfl⟩
    constructor
    · intro hname
      exact List.not_mem_nil (hnone (.inl hname) ▸ hmem)
    · intro hname
      exact List.not_mem_nil (hnone (.inr hname) ▸ hmem)
  single := by
    rw [valuesOf_rewrite_alpn]
    exact Option.length_toList_le
  alpn protocol := by
    rw [valuesOf_rewrite_alpn, Option.mem_toList, Option.bind_eq_some_iff]
    simp only [firstProtocol?_eq_some_iff]
    exact exists_congr fun list => exists_and_left.symm
  others name hlong hshort halpn := by
    rw [Query.valuesOf_pairs, get?_rewrite_of_ne _ hlong hshort halpn, Query.get?_ofPairs,
      Query.getD_entryOf]
  sorted := Query.pairwise_pairs _

/-- The canonical text of an accepted VLESS link is read as a URL whose parameters are those that
the line gave, with the switches left out, one application protocol and the names in order. -/
theorem passesOn_of_process (rules : Policy.RuleSet) (words : Policy.WordList)
    {line text : String} (hclaims : Protocol.vless.claims line = true)
    (hprocess : (Dispatcher.ofRules rules words).process line = .ok text) :
    ∃ u v, Url.read line = .ok u ∧ Url.read text = .ok v ∧
      PassesOn u.queryPairs v.queryPairs := by
  obtain ⟨draft, hdraft, rfl⟩ := Dispatcher.exists_draft_of_process hclaims hprocess
  obtain ⟨-, u, link, hread, hscheme, hlink, rfl⟩ := draft_eq_ok.1 hdraft
  refine ⟨u, readBack link u, hread, read_text hread hscheme hlink, ?_⟩
  obtain ⟨-, server, -, rfl⟩ := link_eq_ok.1 hlink
  rw [readBack, ShareLink.queryPairs_urlFrom]
  exact passesOn_rewrite u.queryPairs

theorem passesOn_of_process_escaped :
    (Dispatcher.ofRules .empty .empty).process
        "vless://u@a.b:1?b=2&%69nsecure=1&alpn=,%20h2%20,h3&alpn=h3&b=1&allowInsecure" =
          .ok "vless://u@a.b:1?alpn=h2&b=2&b=1" ∧
      ∃ u v, Url.read
            "vless://u@a.b:1?b=2&%69nsecure=1&alpn=,%20h2%20,h3&alpn=h3&b=1&allowInsecure" =
          .ok u ∧
        Url.read "vless://u@a.b:1?alpn=h2&b=2&b=1" = .ok v ∧
        PassesOn u.queryPairs v.queryPairs :=
  have hclaims : Protocol.vless.claims
      "vless://u@a.b:1?b=2&%69nsecure=1&alpn=,%20h2%20,h3&alpn=h3&b=1&allowInsecure" = true := rfl
  have hprocess : (Dispatcher.ofRules .empty .empty).process
      "vless://u@a.b:1?b=2&%69nsecure=1&alpn=,%20h2%20,h3&alpn=h3&b=1&allowInsecure" =
        .ok "vless://u@a.b:1?alpn=h2&b=2&b=1" := rfl
  ⟨hprocess, passesOn_of_process .empty .empty hclaims hprocess⟩

end LinkSieve.Link.Vless
