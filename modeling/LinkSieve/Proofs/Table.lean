import LinkSieve.Table

/-!
# What a table holds

Each operation on a table is described by the value it leaves at a name. Two tables with the same
value at every name are the same table, so these descriptions say everything about it.
-/

namespace LinkSieve.Table

variable {β γ : Type}

theorem get?_eq_lookup (t : Table β) (name : String) : t.get? name = t.entries.lookup name := rfl

section Keys

variable {κ : Type} [BEq κ] [LawfulBEq κ] [DecidableEq κ]

theorem lookup_cons_eq_if (key : κ) (e : κ × β) (entries : List (κ × β)) :
    (e :: entries).lookup key = if key = e.1 then some e.2 else entries.lookup key := by
  rw [List.lookup_cons]
  by_cases hk : key = e.1
  · rw [if_pos hk, beq_iff_eq.2 hk]
  · rw [if_neg hk, beq_eq_false_iff_ne.2 hk]

theorem lookup_filter_ne (key : κ) (entries : List (κ × β)) (k : κ) :
    (entries.filter fun e => decide (e.1 ≠ key)).lookup k =
      if k = key then none else entries.lookup k := by
  induction entries with
  | nil => simp
  | cons entry rest ih =>
      by_cases he : entry.1 = key
      · rw [List.filter_cons_of_neg (by simp [he]), ih, lookup_cons_eq_if]
        by_cases hk : k = key
        · simp [hk]
        · simp [hk, he]
      · rw [List.filter_cons_of_pos (by simp [he]), lookup_cons_eq_if, lookup_cons_eq_if, ih]
        by_cases hk : k = key
        · subst hk
          simp [Ne.symm he]
        · simp [hk]

end Keys

theorem lookup_eq_none_of_lt {name : String} {entries : List (String × β)}
    (h : ∀ e ∈ entries, name < e.1) : entries.lookup name = none := by
  rw [List.lookup_eq_none_iff]
  intro e he
  rw [bne_iff_ne]
  intro heq
  exact String.lt_irrefl e.1 (heq ▸ h e he)

theorem lookup_insertEntry (name : String) (value : β) (entries : List (String × β))
    (h : entries.Pairwise fun a b => a.1 < b.1) (n : String) :
    (insertEntry name value entries).lookup n =
      if n = name then some value else entries.lookup n := by
  induction entries with
  | nil => simp [insertEntry, lookup_cons_eq_if]
  | cons entry rest ih =>
      obtain ⟨hentry, hrest⟩ := List.pairwise_cons.1 h
      rw [insertEntry]
      split
      · simp [lookup_cons_eq_if]
      · rename_i hge
        split
        · rename_i hlt
          have hne : entry.1 ≠ name := by
            intro heq
            exact String.lt_irrefl name (heq ▸ hlt)
          rw [lookup_cons_eq_if, lookup_cons_eq_if, ih hrest]
          by_cases hn : n = entry.1
          · simp [hn, hne]
          · simp [hn]
        · rename_i hle
          have heq : entry.1 = name :=
            String.le_antisymm (String.not_lt.1 hge) (String.not_lt.1 hle)
          rw [lookup_cons_eq_if, lookup_cons_eq_if]
          by_cases hn : n = name
          · simp [hn]
          · simp [hn, heq]

/-- An insertion sets the value at its name and at no other. -/
theorem get?_insert (t : Table β) (name : String) (value : β) (n : String) :
    (t.insert name value).get? n = if n = name then some value else t.get? n :=
  lookup_insertEntry name value t.entries t.sorted n

/-- An erasure removes the value at its name and at no other. -/
theorem get?_erase (t : Table β) (name n : String) :
    (t.erase name).get? n = if n = name then none else t.get? n :=
  lookup_filter_ne name t.entries n

theorem get?_insertIfNew (t : Table β) (name : String) (value : β) (n : String) :
    (t.insertIfNew name value).get? n =
      if n = name then some ((t.get? name).getD value) else t.get? n := by
  rw [insertIfNew, contains]
  split
  · rename_i h
    obtain ⟨v, hv⟩ := Option.isSome_iff_exists.1 h
    by_cases hn : n = name
    · simp [hn, hv]
    · simp [hn]
  · rename_i h
    rw [get?_insert, Option.not_isSome_iff_eq_none.1 h]
    rfl

theorem lookup_filterMap (f : String → β → Option γ) (entries : List (String × β))
    (h : entries.Pairwise fun a b => a.1 < b.1) (n : String) :
    (entries.filterMap fun e => (f e.1 e.2).map (e.1, ·)).lookup n =
      (entries.lookup n).bind (f n) := by
  induction entries with
  | nil => rfl
  | cons entry rest ih =>
      obtain ⟨hentry, hrest⟩ := List.pairwise_cons.1 h
      rw [lookup_cons_eq_if]
      by_cases hn : n = entry.1
      · subst hn
        have hnone : rest.lookup entry.1 = none := lookup_eq_none_of_lt hentry
        cases hf : f entry.1 entry.2 with
        | none =>
            rw [List.filterMap_cons_none (by rw [hf]; rfl), ih hrest, hnone]
            simp [hf]
        | some v =>
            rw [List.filterMap_cons_some (b := (entry.1, v)) (by rw [hf]; rfl)]
            simp [hf]
      · cases hf : f entry.1 entry.2 with
        | none =>
            rw [List.filterMap_cons_none (by rw [hf]; rfl), ih hrest]
            simp [hn]
        | some v =>
            rw [List.filterMap_cons_some (b := (entry.1, v)) (by rw [hf]; rfl), lookup_cons_eq_if,
              ih hrest]
            simp [hn]

/-- A table of values that a function gives has at a name what the function gives there. -/
theorem get?_filterMap (f : String → β → Option γ) (t : Table β) (n : String) :
    (t.filterMap f).get? n = (t.get? n).bind (f n) :=
  lookup_filterMap f t.entries t.sorted n

theorem get?_foldl_insert (entries : List (String × β)) (t : Table β) (name : String) :
    (entries.foldl (fun t e => t.insert e.1 e.2) t).get? name =
      (entries.reverse.lookup name).or (t.get? name) := by
  induction entries generalizing t with
  | nil => rfl
  | cons e entries ih =>
      rw [List.foldl_cons, ih, get?_insert, List.reverse_cons, List.lookup_append,
        lookup_cons_eq_if, List.lookup_nil, Option.or_assoc]
      congr 1
      split
      · rfl
      · exact (Option.none_or).symm

/-- In the table of a list the last entry of each name counts. -/
theorem get?_ofList (entries : List (String × β)) (name : String) :
    (ofList entries).get? name = entries.reverse.lookup name :=
  calc
    (ofList entries).get? name = (entries.reverse.lookup name).or (empty.get? name) :=
      get?_foldl_insert entries empty name
    _ = entries.reverse.lookup name := Option.or_none

theorem eq_of_entries_eq {s t : Table β} (h : s.entries = t.entries) : s = t := by
  cases s
  cases t
  cases h
  rfl

/-- A list that agrees with another at the first name of the other does not start after it. -/
theorem not_lt_of_lookup_eq {a b : String × β} {as bs : List (String × β)}
    (hb : (b :: bs).Pairwise fun a b => a.1 < b.1)
    (h : (a :: as).lookup a.1 = (b :: bs).lookup a.1) : ¬a.1 < b.1 := by
  intro hlt
  have hnone : (b :: bs).lookup a.1 = none := by
    apply lookup_eq_none_of_lt
    intro e he
    rcases List.mem_cons.1 he with rfl | he
    · exact hlt
    · exact String.lt_trans hlt ((List.pairwise_cons.1 hb).1 e he)
  rw [hnone, lookup_cons_eq_if, if_pos rfl] at h
  cases h

theorem entries_eq_of_lookup {as bs : List (String × β)}
    (ha : as.Pairwise fun a b => a.1 < b.1) (hb : bs.Pairwise fun a b => a.1 < b.1)
    (h : ∀ name, as.lookup name = bs.lookup name) : as = bs := by
  induction as generalizing bs with
  | nil =>
      cases bs with
      | nil => rfl
      | cons b bs => simpa [lookup_cons_eq_if] using h b.1
  | cons a as ih =>
      cases bs with
      | nil => simpa [lookup_cons_eq_if] using h a.1
      | cons b bs =>
          obtain ⟨haas, has⟩ := List.pairwise_cons.1 ha
          obtain ⟨hbbs, hbs⟩ := List.pairwise_cons.1 hb
          have hle : ¬a.1 < b.1 := not_lt_of_lookup_eq hb (h a.1)
          have hge : ¬b.1 < a.1 := not_lt_of_lookup_eq ha (h b.1).symm
          have hname : a.1 = b.1 := String.le_antisymm (String.not_lt.1 hge) (String.not_lt.1 hle)
          have hvalue : a.2 = b.2 := by simpa [lookup_cons_eq_if, hname] using h b.1
          have htail : as = bs := by
            apply ih has hbs
            intro name
            by_cases hn : name = a.1
            · subst hn
              rw [lookup_eq_none_of_lt haas, lookup_eq_none_of_lt (hname ▸ hbbs)]
            · have hn' : name ≠ b.1 := hname ▸ hn
              simpa [lookup_cons_eq_if, hn, hn'] using h name
          rw [Prod.ext hname hvalue, htail]

/-- Tables with the same value at every name are the same. -/
theorem ext_get? {s t : Table β} (h : ∀ name, s.get? name = t.get? name) : s = t :=
  eq_of_entries_eq (entries_eq_of_lookup s.sorted t.sorted h)

/-- A table has a value at a name exactly if that entry is among its entries. -/
theorem get?_eq_some_iff {t : Table β} {name : String} {value : β} :
    t.get? name = some value ↔ (name, value) ∈ t.entries := by
  have hsorted := t.sorted
  rw [get?_eq_lookup]
  generalize t.entries = entries at hsorted ⊢
  induction entries with
  | nil => simp
  | cons entry rest ih =>
      obtain ⟨hentry, hrest⟩ := List.pairwise_cons.1 hsorted
      rw [lookup_cons_eq_if, List.mem_cons]
      by_cases hn : name = entry.1
      · subst hn
        have hnot : (entry.1, value) ∉ rest := by
          intro h
          exact String.lt_irrefl entry.1 (hentry (entry.1, value) h)
        simp [hnot, Prod.ext_iff, eq_comm]
      · simp [hn, Prod.ext_iff, ih hrest]

theorem isEmpty_iff {t : Table β} : t.isEmpty = true ↔ t = empty := by
  rw [isEmpty, List.isEmpty_iff]
  exact ⟨fun h => eq_of_entries_eq h, fun h => h ▸ rfl⟩

theorem erase_eq_self {t : Table β} {name : String} (h : t.get? name = none) :
    t.erase name = t := by
  apply ext_get?
  intro n
  rw [get?_erase]
  split
  · rename_i hn
    rw [hn, h]
  · rfl

theorem contains_iff_mem_names {t : Table β} {name : String} :
    t.contains name = true ↔ name ∈ t.names := by
  rw [contains, Option.isSome_iff_exists, names, List.mem_map]
  simp only [get?_eq_some_iff]
  constructor
  · rintro ⟨value, h⟩
    exact ⟨(name, value), h, rfl⟩
  · rintro ⟨e, h, rfl⟩
    exact ⟨e.2, h⟩

/-- A search through the entries of a table finds something at the least name where there is
something to be found. -/
theorem findSome?_entries_eq_some_iff {t : Table β} {f : String × β → Option γ} {c : γ} :
    t.entries.findSome? f = some c ↔
      ∃ name value, t.get? name = some value ∧ f (name, value) = some c ∧
        ∀ n < name, ∀ v, t.get? n = some v → f (n, v) = none := by
  have hsorted := t.sorted
  simp only [get?_eq_some_iff]
  rw [List.findSome?_eq_some_iff]
  constructor
  · rintro ⟨before, ⟨name, value⟩, after, heq, hfound, hbefore⟩
    rw [heq] at hsorted ⊢
    obtain ⟨-, hafter, -⟩ := List.pairwise_append.1 hsorted
    refine ⟨name, value, by simp, hfound, fun n hn v hmem => ?_⟩
    rcases List.mem_append.1 hmem with hmem | hmem
    · exact hbefore (n, v) hmem
    rcases List.mem_cons.1 hmem with heq | hmem
    · exact absurd ((Prod.mk.inj heq).1 ▸ hn) (String.lt_irrefl name)
    · exact absurd (String.lt_trans hn ((List.pairwise_cons.1 hafter).1 _ hmem))
        (String.lt_irrefl n)
  · rintro ⟨name, value, hmem, hfound, hless⟩
    obtain ⟨before, after, heq⟩ := List.append_of_mem hmem
    refine ⟨before, (name, value), after, heq, hfound, fun e he => ?_⟩
    rw [heq] at hsorted hless
    have hlt := (List.pairwise_append.1 hsorted).2.2 e he (name, value) List.mem_cons_self
    exact hless e.1 hlt e.2 (List.mem_append_left _ he)

theorem findSome?_entries_eq_none_iff {t : Table β} {f : String × β → Option γ} :
    t.entries.findSome? f = none ↔ ∀ n v, t.get? n = some v → f (n, v) = none := by
  simp only [List.findSome?_eq_none_iff, get?_eq_some_iff, Prod.forall]

end LinkSieve.Table
