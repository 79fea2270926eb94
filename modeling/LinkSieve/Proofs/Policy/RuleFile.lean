import LinkSieve.Policy.RuleFile
import LinkSieve.Proofs.Table
import Mathlib.Data.List.Forall2

/-!
# What a rule file allows

A list of values is read item by item, and a table entry by entry, of which the last one of each
name counts. So a rule allows for a name what the values on the list that the file has for it are
read as.
-/

namespace LinkSieve

namespace Policy.RuleFile

variable {α β : Type}

theorem forall₂_of_mapM {f : α → Option β} {as : List α} {bs : List β}
    (h : as.mapM f = some bs) : List.Forall₂ (fun a b => f a = some b) as bs := by
  induction as generalizing bs with
  | nil =>
      obtain rfl : bs = [] := by simpa [eq_comm] using h
      exact .nil
  | cons a as ih =>
      rw [List.mapM_cons] at h
      obtain ⟨b, hb, h⟩ := Option.bind_eq_some_iff.1 h
      obtain ⟨rest, hrest, h⟩ := Option.bind_eq_some_iff.1 h
      obtain rfl : b :: rest = bs := Option.some.inj h
      exact .cons hb (ih hrest)

theorem exists_mem_of_forall₂ {R : α → β → Prop} {a : α} {as : List α} {bs : List β}
    (h : List.Forall₂ R as bs) (ha : a ∈ as) : ∃ b ∈ bs, R a b := by
  induction h with
  | nil => cases ha
  | cons hab _ ih =>
      rcases List.mem_cons.1 ha with rfl | ha
      · exact ⟨_, List.mem_cons_self, hab⟩
      · obtain ⟨b, hb, hr⟩ := ih ha
        exact ⟨b, List.mem_cons_of_mem _ hb, hr⟩

section Entries

variable {read : Document → Option β} {entries : List (String × Document)} {name : String}
  {d : Document}

theorem exists_lookup_of_forall₂ {results : List (String × β)}
    (h : List.Forall₂ (fun e r => (read e.2).map (e.1, ·) = some r) entries results)
    (hd : entries.lookup name = some d) :
    ∃ value, read d = some value ∧ results.lookup name = some value := by
  induction h with
  | nil => cases hd
  | cons he _ ih =>
      obtain ⟨value, hvalue, rfl⟩ := Option.map_eq_some_iff.1 he
      rw [Table.lookup_cons_eq_if] at hd ⊢
      split at hd
      · rename_i hname
        rw [if_pos hname]
        exact ⟨value, Option.some.inj hd ▸ hvalue, rfl⟩
      · rename_i hname
        rw [if_neg hname]
        exact ih hd

/-- A table has at a name what the last entry of that name is read as. -/
theorem exists_get?_of_tableOf? {document : Document} {t : Table β}
    (hentries : entries? document = some entries) (h : tableOf? read document = some t)
    (hd : entries.reverse.lookup name = some d) :
    ∃ value, read d = some value ∧ t.get? name = some value := by
  rw [tableOf?, hentries, Option.bind_eq_bind, Option.bind_some] at h
  obtain ⟨results, hresults, h⟩ := Option.bind_eq_some_iff.1 h
  obtain rfl : Table.ofList results = t := Option.some.inj h
  rw [Table.get?_ofList]
  exact exists_lookup_of_forall₂ (List.forall₂_reverse_iff.2 (forall₂_of_mapM hresults)) hd

end Entries

end Policy.RuleFile

namespace Json

theorem documents_eq_map (items : List Json) : documents items = items.map document := by
  induction items with
  | nil => rfl
  | cons item items ih => rw [documents, ih, List.map_cons]

theorem documentFields_eq_map (fields : List (String × Json)) :
    documentFields fields = fields.map fun e => (e.1, e.2.document) := by
  induction fields with
  | nil => rfl
  | cons e fields ih => rw [documentFields, ih, List.map_cons]

theorem lookup_map_document (fields : List (String × Json)) (name : String) :
    (fields.map fun e => (e.1, e.2.document)).lookup name = (fields.lookup name).map document := by
  induction fields with
  | nil => rfl
  | cons e fields ih =>
      rw [List.map_cons, Table.lookup_cons_eq_if, Table.lookup_cons_eq_if]
      split
      · rfl
      · exact ih

/-- What a JSON rule says about the values allowed: a field of its own, or the second item where a
list stands for the rule. -/
def allowedPart? : Json → Option Json
  | .object fields => fields.lookup "allowed_values"
  | .array (_ :: allowed :: _) => some allowed
  | _ => none

/-- A JSON rule lists the values that it allows for a name. Of several lists for one name the last
one counts. -/
def ListsAllowed (rule : Json) (name : String) (items : List Json) : Prop :=
  ∃ entries, allowedPart? rule = some (.object entries) ∧
    entries.reverse.lookup name = some (.array items)

end Json

namespace Policy.RuleFile

variable {j : Json} {rule : Rule} {name : String} {items : List Json}

/-- The field of a rule with the values allowed. -/
theorem lookup_allowed {part : Json} {fields : List (String × Document)}
    (hpart : j.allowedPart? = some part)
    (hfields : fields? .json ["required_params", "allowed_values", "forbidden_values",
      "conditional"] j.document = some fields) :
    fields.lookup "allowed_values" = some part.document := by
  cases j with
  | object entries =>
      have hlookup : entries.lookup "allowed_values" = some part := hpart
      rw [Json.document, fields?] at hfields
      · obtain ⟨found, hfound, h⟩ := Option.bind_eq_some_iff.1 hfields
        obtain rfl : Json.documentFields entries = found := Option.some.inj hfound
        simp only at h
        split at h
        · obtain rfl : Json.documentFields entries = fields := Option.some.inj h
          rw [Json.documentFields_eq_map, Json.lookup_map_document, hlookup]
          rfl
        · cases h
      · exact fun _ h => nomatch h
  | array items =>
      match items, hpart with
      | _ :: allowed :: rest, hpart =>
          obtain rfl : allowed = part := Option.some.inj hpart
          rw [Json.document, fields?] at hfields
          split at hfields
          · obtain rfl := Option.some.inj hfields
            rfl
          · cases hfields
  | null => cases hpart
  | bool b => cases hpart
  | number n => cases hpart
  | text s => cases hpart

/-- A rule allows for a name what the items on the list for that name are read as. -/
theorem exists_allowed_of_rule? (hrule : rule? .json j.document = some rule)
    (hlists : j.ListsAllowed name items) :
    ∃ values, rule.allowed.get? name = some values ∧
      List.Forall₂ (fun item value => value? item.document = some value) items values := by
  obtain ⟨entries, hpart, hitems⟩ := hlists
  rw [rule?] at hrule
  obtain ⟨fields, hfields, h⟩ := Option.bind_eq_some_iff.1 hrule
  obtain ⟨required, -, h⟩ := Option.bind_eq_some_iff.1 h
  obtain ⟨allowed, hallowed, h⟩ := Option.bind_eq_some_iff.1 h
  obtain ⟨forbidden, -, h⟩ := Option.bind_eq_some_iff.1 h
  obtain ⟨conditions, -, h⟩ := Option.bind_eq_some_iff.1 h
  obtain rfl := Option.some.inj h
  rw [field?, lookup_allowed hpart hfields] at hallowed
  have hlast : (Json.documentFields entries).reverse.lookup name =
      some (.list (Json.documents items)) := by
    rw [Json.documentFields_eq_map, ← List.map_reverse, Json.lookup_map_document, hitems]
    rfl
  obtain ⟨values, hvalues, hget⟩ := exists_get?_of_tableOf? rfl hallowed hlast
  refine ⟨values, hget, ?_⟩
  have hitem := forall₂_of_mapM (f := value?) hvalues
  rw [Json.documents_eq_map] at hitem
  exact List.forall₂_map_left_iff.1 hitem

end Policy.RuleFile

end LinkSieve
