import LinkSieve.Json.Reading
import LinkSieve.Proofs.Json.Token

/-!
# Reading back a written value

A value that is not nested too deep is put together again from its tokens, so a value with integers
for numbers is read back from its text. What has been read is nested no deeper than that and has no
integers beyond 64 bits, and there are no tokens but its own that it can have been read from.
-/

namespace LinkSieve.Json

namespace Machine

/-- Tokens that take the machine from one configuration to another. -/
def Runs (ts : List Token) (m m' : Machine) : Prop :=
  ts.foldlM step? m = some m'

section Runs

variable {m m' m'' : Machine} {t : Token} {ts us : List Token}

theorem runs_single (h : step? m t = some m') : Runs [t] m m' := by
  rw [Runs, List.foldlM_cons, h]
  rfl

theorem Runs.cons (h : step? m t = some m') (hts : Runs ts m' m'') : Runs (t :: ts) m m'' := by
  rw [Runs, List.foldlM_cons, h]
  exact hts

theorem Runs.append (hts : Runs ts m m') (hus : Runs us m' m'') : Runs (ts ++ us) m m'' := by
  rw [Runs] at hts
  rw [Runs, List.foldlM_append, hts]
  exact hus

end Runs

/-- A value may come next. -/
def AwaitsValue (mode : Mode) : Prop :=
  mode = .value ∨ mode = .firstItem

/-- A field may come next. -/
def AwaitsName (mode : Mode) : Prop :=
  mode = .name ∨ mode = .firstName

section Steps

variable {stack : List Frame} {mode : Mode} {t : Token}

theorem step?_eq_open? (hmode : AwaitsValue mode) (ht : t ≠ .closeArray) :
    step? ⟨stack, mode⟩ t = open? stack t := by
  rcases hmode with rfl | rfl
  · rfl
  · cases t with
    | closeArray => exact absurd rfl ht
    | _ =>
        cases stack with
        | nil => rfl
        | cons frame rest => cases frame <;> rfl

theorem step?_name {acc : List (String × Json)} {last name : String} (hmode : AwaitsName mode) :
    step? ⟨.object acc last :: stack, mode⟩ (.atom (.text name)) =
      some ⟨.object acc name :: stack, .colon⟩ := by
  rcases hmode with rfl | rfl <;> rfl

end Steps

/-- The tokens of a value take the machine past that value. -/
def ReadsBack (depth : Nat) (v : Json) : Prop :=
  ∀ stack mode, AwaitsValue mode → stack.length + depth ≤ Machine.depth →
    Runs v.tokens ⟨stack, mode⟩ (put stack v)

section Values

variable {depth : Nat} {stack : List Frame} {mode : Mode}

theorem readsBack_of_tokens_eq_atom {v : Json} (h : v.tokens = [.atom v]) : ReadsBack depth v := by
  intro stack mode hmode _
  rw [h]
  exact runs_single (step?_eq_open? hmode fun h => nomatch h)

theorem runs_itemTokens {items acc : List Json} (hne : items ≠ [])
    (h : ∀ item ∈ items, ReadsBack depth item) (hmode : AwaitsValue mode)
    (hdepth : stack.length + 1 + depth ≤ Machine.depth) :
    Runs (itemTokens items ++ [.closeArray]) ⟨.array acc :: stack, mode⟩
      (put stack (.array (acc.reverse ++ items))) := by
  induction items generalizing acc mode with
  | nil => exact absurd rfl hne
  | cons item rest ih =>
      have hitem := h item List.mem_cons_self (.array acc :: stack) mode hmode hdepth
      cases rest with
      | nil =>
          have hclose : step? ⟨.array (item :: acc) :: stack, .separator⟩ .closeArray =
              some (put stack (.array (acc.reverse ++ [item]))) := by
            rw [← List.reverse_cons]
            rfl
          exact hitem.append (runs_single hclose)
      | cons next rest =>
          have hrest : Runs (itemTokens (next :: rest) ++ [.closeArray])
              ⟨.array (item :: acc) :: stack, .value⟩
              (put stack (.array ((item :: acc).reverse ++ next :: rest))) :=
            ih (List.cons_ne_nil next rest) (fun i hi => h i (List.mem_cons_of_mem _ hi)) (.inl rfl)
          rw [List.reverse_cons, List.append_assoc] at hrest
          have hcomma : step? ⟨.array (item :: acc) :: stack, .separator⟩ .comma =
              some ⟨.array (item :: acc) :: stack, .value⟩ := rfl
          rw [itemTokens, List.append_assoc]
          · exact hitem.append (Runs.cons hcomma hrest)
          · exact List.cons_ne_nil _ _

theorem runs_fieldTokens {fields acc : List (String × Json)} {last : String} (hne : fields ≠ [])
    (h : ∀ field ∈ fields, ReadsBack depth field.2) (hmode : AwaitsName mode)
    (hdepth : stack.length + 1 + depth ≤ Machine.depth) :
    Runs (fieldTokens fields ++ [.closeObject]) ⟨.object acc last :: stack, mode⟩
      (put stack (.object (acc.reverse ++ fields))) := by
  induction fields generalizing acc last mode with
  | nil => exact absurd rfl hne
  | cons field rest ih =>
      obtain ⟨name, value⟩ := field
      have hname : step? ⟨.object acc last :: stack, mode⟩ (.atom (.text name)) =
          some ⟨.object acc name :: stack, .colon⟩ := step?_name hmode
      have hcolon : step? ⟨.object acc name :: stack, .colon⟩ .colon =
          some ⟨.object acc name :: stack, .value⟩ := rfl
      have hvalue : Runs value.tokens ⟨.object acc name :: stack, .value⟩
          ⟨.object ((name, value) :: acc) name :: stack, .separator⟩ :=
        h _ List.mem_cons_self (.object acc name :: stack) .value (.inl rfl) hdepth
      cases rest with
      | nil =>
          have hclose : step? ⟨.object ((name, value) :: acc) name :: stack, .separator⟩
              .closeObject = some (put stack (.object (acc.reverse ++ [(name, value)]))) := by
            rw [← List.reverse_cons]
            rfl
          exact Runs.cons hname (Runs.cons hcolon (hvalue.append (runs_single hclose)))
      | cons next rest =>
          have hrest : Runs (fieldTokens (next :: rest) ++ [.closeObject])
              ⟨.object ((name, value) :: acc) name :: stack, .name⟩
              (put stack (.object (((name, value) :: acc).reverse ++ next :: rest))) :=
            ih (List.cons_ne_nil next rest) (fun f hf => h f (List.mem_cons_of_mem _ hf)) (.inl rfl)
          rw [List.reverse_cons, List.append_assoc] at hrest
          have hcomma : step? ⟨.object ((name, value) :: acc) name :: stack, .separator⟩ .comma =
              some ⟨.object ((name, value) :: acc) name :: stack, .name⟩ := rfl
          rw [fieldTokens]
          · simp only [List.cons_append, List.append_assoc]
            exact Runs.cons hname (Runs.cons hcolon (hvalue.append (Runs.cons hcomma hrest)))
          · exact List.cons_ne_nil _ _

/-- A value that fits on the stack is read back from its tokens. -/
theorem readsBack_of_nests {v : Json} (h : v.Nests depth) : ReadsBack depth v := by
  induction h with
  | null => exact readsBack_of_tokens_eq_atom rfl
  | bool b => exact readsBack_of_tokens_eq_atom rfl
  | number n => exact readsBack_of_tokens_eq_atom rfl
  | text s => exact readsBack_of_tokens_eq_atom rfl
  | @array depth items h ih =>
      intro stack mode hmode hdepth
      have hroom : stack.length < Machine.depth := by omega
      have hopen : step? ⟨stack, mode⟩ .openArray = some ⟨.array [] :: stack, .firstItem⟩ := by
        rw [step?_eq_open? hmode (by intro heq; cases heq), open?, if_pos hroom]
      rw [tokens]
      by_cases hne : items = []
      · subst hne
        exact Runs.cons hopen (runs_single rfl)
      · exact Runs.cons hopen (runs_itemTokens hne ih (.inr rfl) (by omega))
  | @object depth fields h ih =>
      intro stack mode hmode hdepth
      have hroom : stack.length < Machine.depth := by omega
      have hopen : step? ⟨stack, mode⟩ .openObject =
          some ⟨.object [] "" :: stack, .firstName⟩ := by
        rw [step?_eq_open? hmode (by intro heq; cases heq), open?, if_pos hroom]
      rw [tokens]
      by_cases hne : fields = []
      · subst hne
        exact Runs.cons hopen (runs_single rfl)
      · exact Runs.cons hopen (runs_fieldTokens hne ih (.inr rfl) (by omega))

end Values

end Machine

theorem ofTokens?_tokens {v : Json} (h : v.Nests Machine.depth) : ofTokens? v.tokens = some v := by
  have hruns : Machine.Runs v.tokens Machine.start (Machine.put [] v) :=
    Machine.readsBack_of_nests h [] .value (.inl rfl) (by decide)
  rw [Machine.Runs] at hruns
  rw [ofTokens?, hruns]
  rfl

/-- A value with integers of 64 bits that is not nested too deep is read back from its text. -/
theorem read?_write {v : Json} (hnumbers : v.Holds fun n => n.IsInteger ∧ n.InRange)
    (hdepth : v.Nests Machine.depth) : read? v.write = some v := by
  rw [read?, Token.scan_write hnumbers]
  exact ofTokens?_tokens hdepth

/-- A value that can be read with room for so many open arrays and objects. -/
structure IsReadable (room : Nat) (v : Json) : Prop where
  numbers : v.Holds Number.InRange
  nests : v.Nests room

namespace Machine

/-- The values that an open array or object holds so far. -/
def heldBy : Frame → List Json
  | .array items => items
  | .object fields _ => fields.map (·.2)

/-- Every open array or object has room, and what it holds is readable within what is left. -/
def IsSoundStack : List Frame → Prop
  | [] => True
  | frame :: rest => rest.length < depth ∧
    (∀ v ∈ heldBy frame, IsReadable (depth - (rest.length + 1)) v) ∧ IsSoundStack rest

/-- The invariant of the machine: a sound stack, and a readable value at the end. -/
structure IsSound (m : Machine) : Prop where
  stack : IsSoundStack m.stack
  done : ∀ v, m.mode = .done v → IsReadable depth v

section Sound

variable {m m' : Machine} {t : Token} {stack rest : List Frame} {v : Json}

theorem isSound_put (hstack : IsSoundStack stack) (hv : IsReadable (depth - stack.length) v) :
    (put stack v).IsSound := by
  cases stack with
  | nil =>
      refine ⟨trivial, ?_⟩
      intro w hw
      cases hw
      exact hv
  | cons frame rest =>
      obtain ⟨hroom, hheld, hrest⟩ := hstack
      cases frame with
      | array items =>
          refine ⟨⟨hroom, ?_, hrest⟩, fun w hw => nomatch hw⟩
          intro w hw
          rcases List.mem_cons.1 hw with rfl | hw
          · exact hv
          · exact hheld w hw
      | object fields name =>
          refine ⟨⟨hroom, ?_, hrest⟩, fun w hw => nomatch hw⟩
          intro w hw
          rcases List.mem_cons.1 hw with rfl | hw
          · exact hv
          · exact hheld w hw

theorem isReadable_array {items : List Json} (hroom : rest.length < depth)
    (h : ∀ item ∈ items, IsReadable (depth - (rest.length + 1)) item) :
    IsReadable (depth - rest.length) (.array items) := by
  have hdepth : depth - rest.length = depth - (rest.length + 1) + 1 := by omega
  rw [hdepth]
  exact ⟨.array fun item hi => (h item hi).numbers, .array fun item hi => (h item hi).nests⟩

theorem isReadable_object {fields : List (String × Json)} (hroom : rest.length < depth)
    (h : ∀ field ∈ fields, IsReadable (depth - (rest.length + 1)) field.2) :
    IsReadable (depth - rest.length) (.object fields) := by
  have hdepth : depth - rest.length = depth - (rest.length + 1) + 1 := by omega
  rw [hdepth]
  exact ⟨.object fun f hf => (h f hf).numbers, .object fun f hf => (h f hf).nests⟩

theorem isSound_open? (hstack : IsSoundStack stack) (ht : t.IsSimple)
    (h : open? stack t = some m') : m'.IsSound := by
  cases t with
  | atom value =>
      cases h
      exact isSound_put hstack ⟨ht.1, ht.2 _⟩
  | openArray =>
      rw [open?] at h
      split at h
      · rename_i hroom
        cases h
        exact ⟨⟨hroom, fun _ hv => absurd hv List.not_mem_nil, hstack⟩, fun _ hv => nomatch hv⟩
      · cases h
  | openObject =>
      rw [open?] at h
      split at h
      · rename_i hroom
        cases h
        exact ⟨⟨hroom, fun _ hv => absurd hv List.not_mem_nil, hstack⟩, fun _ hv => nomatch hv⟩
      · cases h
  | _ => cases h

/-- Closing an array whose items the stack holds keeps the invariant. -/
theorem isSound_closeArray {items closed : List Json}
    (hstack : IsSoundStack (.array items :: rest)) (hclosed : ∀ v ∈ closed, v ∈ items) :
    (put rest (.array closed)).IsSound := by
  obtain ⟨hroom, hheld, hrest⟩ := hstack
  exact isSound_put hrest (isReadable_array hroom fun v hv => hheld v (hclosed v hv))

/-- Closing an object whose fields the stack holds keeps the invariant. -/
theorem isSound_closeObject {fields closed : List (String × Json)} {name : String}
    (hstack : IsSoundStack (.object fields name :: rest)) (hclosed : ∀ f ∈ closed, f ∈ fields) :
    (put rest (.object closed)).IsSound := by
  obtain ⟨hroom, hheld, hrest⟩ := hstack
  refine isSound_put hrest (isReadable_object hroom fun f hf => ?_)
  exact hheld f.2 (List.mem_map_of_mem (hclosed f hf))

/-- One token keeps the invariant. -/
theorem isSound_step? (hm : m.IsSound) (ht : t.IsSimple) (h : step? m t = some m') :
    m'.IsSound := by
  have hstack := hm.stack
  unfold step? at h
  split at h
  · exact isSound_open? hstack ht h
  · rename_i hheld
    rw [hheld] at hstack
    cases h
    exact isSound_closeArray hstack fun _ hv => absurd hv List.not_mem_nil
  · exact isSound_open? hstack ht h
  · rename_i hheld
    rw [hheld] at hstack
    cases h
    exact isSound_closeObject hstack fun _ hf => absurd hf List.not_mem_nil
  · rename_i hheld
    rw [hheld] at hstack
    cases h
    exact ⟨hstack, fun _ hv => nomatch hv⟩
  · rename_i hheld
    rw [hheld] at hstack
    cases h
    exact ⟨hstack, fun _ hv => nomatch hv⟩
  · cases h
    exact ⟨hstack, fun _ hv => nomatch hv⟩
  · rename_i hheld
    rw [hheld] at hstack
    cases h
    exact ⟨hstack, fun _ hv => nomatch hv⟩
  · rename_i hheld
    rw [hheld] at hstack
    cases h
    exact ⟨hstack, fun _ hv => nomatch hv⟩
  · rename_i hheld
    rw [hheld] at hstack
    cases h
    exact isSound_closeArray hstack fun _ hv => List.mem_reverse.1 hv
  · rename_i hheld
    rw [hheld] at hstack
    cases h
    exact isSound_closeObject hstack fun _ hf => List.mem_reverse.1 hf
  · cases h

/-- Tokens keep the invariant. -/
theorem isSound_foldlM {ts : List Token} (hm : m.IsSound) (hts : ∀ t ∈ ts, t.IsSimple)
    (h : ts.foldlM step? m = some m') : m'.IsSound := by
  induction ts generalizing m with
  | nil =>
      cases h
      exact hm
  | cons t ts ih =>
      rw [List.foldlM_cons] at h
      obtain ⟨next, hstep, h⟩ := Option.bind_eq_some_iff.1 h
      exact ih (isSound_step? hm (hts t List.mem_cons_self) hstep)
        (fun u hu => hts u (List.mem_cons_of_mem t hu)) h

end Sound

end Machine

/-- A value that has been read is nested no deeper than the machine has room for, and has no
integers beyond 64 bits. -/
theorem isReadable_of_read? {cs : List Char} {v : Json} (h : read? cs = some v) :
    IsReadable Machine.depth v := by
  obtain ⟨ts, hscan, h⟩ := Option.bind_eq_some_iff.1 h
  obtain ⟨m, hfold, hresult⟩ := Option.bind_eq_some_iff.1 h
  have hstart : Machine.start.IsSound := ⟨trivial, fun _ hv => nomatch hv⟩
  have hm := Machine.isSound_foldlM hstart (Token.isSimple_scanFrom hscan) hfold
  rw [Machine.result?] at hresult
  split at hresult
  · rename_i value hdone
    cases hresult
    exact hm.done _ hdone
  · cases hresult

/-- The tokens of items with a comma after each of them. -/
def commaItems (items : List Json) : List Token :=
  items.flatMap fun item => item.tokens ++ [.comma]

/-- The tokens of fields with a comma after each of them. -/
def commaFields (fields : List (String × Json)) : List Token :=
  fields.flatMap fun field => .atom (.text field.1) :: .colon :: (field.2.tokens ++ [.comma])

section Commas

variable {items : List Json} {fields : List (String × Json)}

theorem commaItems_append (items : List Json) (item : Json) :
    commaItems items ++ item.tokens = itemTokens (items ++ [item]) := by
  induction items with
  | nil => rfl
  | cons first rest ih =>
      rw [List.cons_append, itemTokens, ← ih]
      · simp [commaItems]
      · exact List.append_ne_nil_of_right_ne_nil _ (List.cons_ne_nil _ _)

theorem itemTokens_append_comma (hne : items ≠ []) :
    itemTokens items ++ [.comma] = commaItems items := by
  rw [← List.dropLast_concat_getLast hne, ← commaItems_append]
  simp [commaItems]

theorem commaFields_append (fields : List (String × Json)) (name : String) (value : Json) :
    commaFields fields ++ .atom (.text name) :: .colon :: value.tokens =
      fieldTokens (fields ++ [(name, value)]) := by
  induction fields with
  | nil => rfl
  | cons first rest ih =>
      rw [List.cons_append, fieldTokens, ← ih]
      · simp [commaFields]
      · exact List.append_ne_nil_of_right_ne_nil _ (List.cons_ne_nil _ _)

theorem fieldTokens_append_comma (hne : fields ≠ []) :
    fieldTokens fields ++ [.comma] = commaFields fields := by
  rw [← List.dropLast_concat_getLast hne, ← commaFields_append]
  simp [commaFields]

end Commas

namespace Machine

/-- The tokens of open arrays and objects up to where each of them has a value next. -/
def stackTokens : List Frame → List Token
  | [] => []
  | .array items :: rest => stackTokens rest ++ .openArray :: commaItems items.reverse
  | .object fields name :: rest =>
    stackTokens rest ++ .openObject :: (commaFields fields.reverse ++ [.atom (.text name), .colon])

/-- The tokens that a machine has read, by what has to come next. -/
inductive HasRead : List Token → Machine → Prop where
  | value {stack : List Frame} : HasRead (stackTokens stack) ⟨stack, .value⟩
  | firstItem {rest : List Frame} :
    HasRead (stackTokens (.array [] :: rest)) ⟨.array [] :: rest, .firstItem⟩
  | firstName {rest : List Frame} {last : String} :
    HasRead (stackTokens rest ++ [.openObject]) ⟨.object [] last :: rest, .firstName⟩
  | name {rest : List Frame} {fields : List (String × Json)} {last : String} :
    HasRead (stackTokens rest ++ .openObject :: commaFields fields.reverse)
      ⟨.object fields last :: rest, .name⟩
  | colon {rest : List Frame} {fields : List (String × Json)} {name : String} :
    HasRead
      (stackTokens rest ++ .openObject :: (commaFields fields.reverse ++ [.atom (.text name)]))
      ⟨.object fields name :: rest, .colon⟩
  | item {rest : List Frame} {items : List Json} (h : items ≠ []) :
    HasRead (stackTokens rest ++ .openArray :: itemTokens items.reverse)
      ⟨.array items :: rest, .separator⟩
  | field {rest : List Frame} {fields : List (String × Json)} {last : String} (h : fields ≠ []) :
    HasRead (stackTokens rest ++ .openObject :: fieldTokens fields.reverse)
      ⟨.object fields last :: rest, .separator⟩
  | done {v : Json} : HasRead v.tokens ⟨[], .done v⟩

section Read

variable {m m' : Machine} {t : Token} {ts us : List Token} {stack : List Frame} {v : Json}

theorem tokens_of_nests_zero (h : v.Nests 0) : v.tokens = [.atom v] := by
  cases h with
  | null => rfl
  | bool b => rfl
  | number n => rfl
  | text s => rfl

theorem hasRead_put (stack : List Frame) (v : Json) :
    HasRead (stackTokens stack ++ v.tokens) (put stack v) := by
  cases stack with
  | nil => exact .done
  | cons frame rest =>
      cases frame with
      | array items =>
          rw [stackTokens, List.append_assoc, List.cons_append, commaItems_append,
            ← List.reverse_cons]
          exact .item (List.cons_ne_nil _ _)
      | object fields name =>
          rw [stackTokens, List.append_assoc, List.cons_append, List.append_assoc, List.cons_append,
            List.singleton_append, commaFields_append, ← List.reverse_cons]
          exact .field (List.cons_ne_nil _ _)

theorem hasRead_open? (ht : t.IsSimple) (h : open? stack t = some m') :
    HasRead (stackTokens stack ++ [t]) m' := by
  cases t with
  | atom value =>
      obtain rfl := Option.some.inj h
      rw [← tokens_of_nests_zero (ht.2 0)]
      exact hasRead_put stack value
  | openArray =>
      rw [open?] at h
      split at h
      · obtain rfl := Option.some.inj h
        exact .firstItem
      · cases h
  | openObject =>
      rw [open?] at h
      split at h
      · obtain rfl := Option.some.inj h
        exact .firstName
      · cases h
  | _ => cases h

/-- One more token is read. -/
theorem HasRead.step? (hm : HasRead ts m) (ht : t.IsSimple) (h : step? m t = some m') :
    HasRead (ts ++ [t]) m' := by
  cases hm with
  | value => exact hasRead_open? ht h
  | firstItem =>
      by_cases hclose : t = .closeArray
      · subst hclose
        obtain rfl := Option.some.inj h
        rw [stackTokens, List.append_assoc]
        exact hasRead_put _ (.array [])
      · rw [step?_eq_open? (.inr rfl) hclose] at h
        exact hasRead_open? ht h
  | @firstName rest last =>
      cases t with
      | atom value =>
          cases value with
          | text name =>
              obtain rfl := Option.some.inj h
              rw [List.append_assoc]
              exact @HasRead.colon rest [] name
          | _ => cases h
      | closeObject =>
          obtain rfl := Option.some.inj h
          rw [List.append_assoc]
          exact hasRead_put rest (.object [])
      | _ => cases h
  | @name rest fields last =>
      cases t with
      | atom value =>
          cases value with
          | text name =>
              obtain rfl := Option.some.inj h
              rw [List.append_assoc]
              exact .colon
          | _ => cases h
      | _ => cases h
  | @colon rest fields name =>
      cases t with
      | colon =>
          obtain rfl := Option.some.inj h
          rw [List.append_assoc, List.cons_append, List.append_assoc]
          exact @HasRead.value (.object fields name :: rest)
      | _ => cases h
  | @item rest items hne =>
      have hne : items.reverse ≠ [] := fun hnil => hne (List.reverse_eq_nil_iff.1 hnil)
      cases t with
      | comma =>
          obtain rfl := Option.some.inj h
          rw [List.append_assoc, List.cons_append, itemTokens_append_comma hne]
          exact @HasRead.value (.array items :: rest)
      | closeArray =>
          obtain rfl := Option.some.inj h
          rw [List.append_assoc]
          exact hasRead_put rest (.array items.reverse)
      | _ => cases h
  | @field rest fields last hne =>
      have hne : fields.reverse ≠ [] := fun hnil => hne (List.reverse_eq_nil_iff.1 hnil)
      cases t with
      | comma =>
          obtain rfl := Option.some.inj h
          rw [List.append_assoc, List.cons_append, fieldTokens_append_comma hne]
          exact .name
      | closeObject =>
          obtain rfl := Option.some.inj h
          rw [List.append_assoc]
          exact hasRead_put rest (.object fields.reverse)
      | _ => cases h
  | done => cases t <;> cases h

theorem HasRead.foldlM (hm : HasRead ts m) (hus : ∀ t ∈ us, t.IsSimple)
    (h : us.foldlM Machine.step? m = some m') : HasRead (ts ++ us) m' := by
  induction us generalizing m ts with
  | nil =>
      obtain rfl := Option.some.inj h
      rw [List.append_nil]
      exact hm
  | cons t us ih =>
      rw [List.foldlM_cons] at h
      obtain ⟨next, hstep, h⟩ := Option.bind_eq_some_iff.1 h
      rw [List.append_cons]
      exact ih (hm.step? (hus t List.mem_cons_self) hstep)
        (fun u hu => hus u (List.mem_cons_of_mem t hu)) h

end Read

end Machine

/-- Tokens that hold single values make up a value only if they are the tokens of it. -/
theorem eq_tokens_of_ofTokens? {ts : List Token} {v : Json} (hts : ∀ t ∈ ts, t.IsSimple)
    (h : ofTokens? ts = some v) : ts = v.tokens := by
  obtain ⟨m, hfold, hresult⟩ := Option.bind_eq_some_iff.1 h
  have hread : Machine.HasRead ts m :=
    (@Machine.HasRead.value []).foldlM hts hfold
  cases hread with
  | done =>
      obtain rfl := Option.some.inj hresult
      rfl
  | _ => cases hresult

/-- A text is read as a value if its tokens are those of the value and there is room for them. -/
theorem read?_eq_some_iff {cs : List Char} {v : Json} :
    read? cs = some v ↔ Token.scan cs = some v.tokens ∧ v.Nests Machine.depth := by
  constructor
  · intro h
    have hnests := (isReadable_of_read? h).nests
    obtain ⟨ts, hscan, h⟩ := Option.bind_eq_some_iff.1 h
    obtain rfl := eq_tokens_of_ofTokens? (Token.isSimple_scanFrom hscan) h
    exact ⟨hscan, hnests⟩
  · rintro ⟨hscan, hnests⟩
    rw [read?, hscan]
    exact ofTokens?_tokens hnests

end LinkSieve.Json
