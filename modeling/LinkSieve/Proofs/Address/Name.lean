import LinkSieve.Proofs.Address.Server
import LinkSieve.Proofs.Text.Split
import Mathlib.Computability.Language

/-!
# The grammar of hosts

A domain name is cut at its points into labels, or it is the mark of an encoded name and is cut
behind that mark into parts. The check in one pass accepts just the names all of whose pieces are in
order, and these are the words of a regular pattern. A host is a name in letters of either case, or
an IP address, with one pair of square brackets around it or without.

## Implementation notes

Both checks go along a text piece by piece. What such a check still asks of the rest of a text is
one condition on the rest of the piece under way, which changes with every character, and another
one on all pieces behind it, which does not.
-/

namespace LinkSieve.Address

open scoped Computability

/-- A letter or digit of a lower-cased name, or a hyphen. -/
def InLabel (c : Char) : Prop :=
  isNameChar c = true ∨ c = '-'

/-- A part of an encoded name. -/
structure IsPart (cs : List Char) : Prop where
  ne_nil : cs ≠ []
  chars : ∀ c ∈ cs, InLabel c

/-- A label, which neither starts nor ends with a hyphen. -/
structure IsLabel (cs : List Char) : Prop extends IsPart cs where
  head : cs.head? ≠ some '-'
  last : cs.getLast? ≠ some '-'

/-- At least two pieces of one kind with points between them. -/
def IsDotted (kind : List Char → Prop) (cs : List Char) : Prop :=
  2 ≤ (cs.splitOn '.').length ∧ ∀ piece ∈ cs.splitOn '.', kind piece

theorem ne_hyphen_of_isNameChar {c : Char} (h : isNameChar c = true) : c ≠ '-' := by
  rintro rfl
  exact absurd h (by decide)

theorem point_not_inLabel : ¬InLabel '.' := by
  rintro (h | h)
  · exact absurd h (by decide)
  · exact absurd h (by decide)

section Rest

variable {first first' kind : List Char → Prop} {dotted : Bool} {c : Char} {cs : List Char}

/-- The rest of a name: the rest of the piece under way, and further pieces of one kind, of which
there is at least one unless a point has been passed. -/
def CompletesName (first kind : List Char → Prop) (dotted : Bool) (cs : List Char) : Prop :=
  ∃ piece others, cs.splitOn '.' = piece :: others ∧ first piece ∧
    (∀ other ∈ others, kind other) ∧ (dotted = true ∨ others ≠ [])

theorem completesName_of_splitOn {piece : List Char} {others : List (List Char)}
    (h : cs.splitOn '.' = piece :: others) : CompletesName first kind dotted cs ↔
      first piece ∧ (∀ other ∈ others, kind other) ∧ (dotted = true ∨ others ≠ []) := by
  constructor
  · rintro ⟨piece', others', h', hrest⟩
    obtain ⟨rfl, rfl⟩ := List.cons.inj (h.symm.trans h')
    exact hrest
  · intro hrest
    exact ⟨piece, others, h, hrest⟩

theorem completesName_nil : CompletesName first kind dotted [] ↔ first [] ∧ dotted = true := by
  rw [completesName_of_splitOn (List.splitOn_nil '.')]
  simp

/-- A point ends the piece under way. -/
theorem completesName_point :
    CompletesName first kind dotted ('.' :: cs) ↔ first [] ∧ CompletesName kind kind true cs := by
  obtain ⟨next, others, hnext⟩ := List.exists_cons_of_ne_nil (List.splitOn_ne_nil '.' cs)
  have hsplit : ('.' :: cs).splitOn '.' = [] :: next :: others := by
    rw [Text.splitOn_cons_self, hnext]
  rw [completesName_of_splitOn hsplit, completesName_of_splitOn hnext, List.forall_mem_cons]
  simp

/-- Any other character belongs to it. -/
theorem completesName_cons (hc : c ≠ '.') : CompletesName first kind dotted (c :: cs) ↔
    CompletesName (fun piece => first (c :: piece)) kind dotted cs := by
  obtain ⟨next, others, hnext⟩ := List.exists_cons_of_ne_nil (List.splitOn_ne_nil '.' cs)
  have hsplit : (c :: cs).splitOn '.' = (c :: next) :: others := by
    rw [Text.splitOn_cons_of_ne hc, hnext, List.modifyHead_cons]
  rw [completesName_of_splitOn hsplit, completesName_of_splitOn hnext]

theorem completesName_congr (h : ∀ piece, first piece ↔ first' piece) :
    CompletesName first kind dotted cs ↔ CompletesName first' kind dotted cs := by
  simp only [CompletesName, h]

theorem completesName_false (h : ∀ piece, ¬first piece) :
    ¬CompletesName first kind dotted cs := by
  rintro ⟨piece, -, -, hfirst, -⟩
  exact h piece hfirst

/-- From its start on, a name is completed by pieces of its kind, two at least. -/
theorem completesName_start : CompletesName kind kind false cs ↔ IsDotted kind cs := by
  obtain ⟨piece, others, hsplit⟩ := List.exists_cons_of_ne_nil (List.splitOn_ne_nil '.' cs)
  rw [completesName_of_splitOn hsplit, IsDotted, hsplit, List.forall_mem_cons]
  cases others with
  | nil => simp
  | cons next others => simp

end Rest

section Checks

variable {c : Char} {cs : List Char} {place : NamePlace} {inPart dotted : Bool}

/-- The rest of a label from a place in it on. -/
def CompletesLabel : NamePlace → List Char → Prop
  | .labelStart, cs => IsLabel cs
  | .afterNameChar, cs => (∀ c ∈ cs, InLabel c) ∧ cs.getLast? ≠ some '-'
  | .afterHyphen, cs => IsPart cs ∧ cs.getLast? ≠ some '-'

/-- A label may end after a letter or a digit. -/
theorem completesLabel_nil : CompletesLabel place [] ↔ place = .afterNameChar := by
  cases place with
  | labelStart => exact iff_of_false (fun h => h.ne_nil rfl) nofun
  | afterNameChar => exact iff_of_true ⟨fun _ hc => absurd hc List.not_mem_nil, nofun⟩ rfl
  | afterHyphen => exact iff_of_false (fun h => h.1.ne_nil rfl) nofun

theorem getLast?_cons_ne (hc : c ≠ '-') (cs : List Char) :
    (c :: cs).getLast? ≠ some '-' ↔ cs.getLast? ≠ some '-' := by
  cases cs with
  | nil => simp [hc]
  | cons next cs => rw [List.getLast?_cons_cons]

/-- A letter or a digit goes with every place in a label. -/
theorem completesLabel_nameChar (hc : isNameChar c = true) :
    CompletesLabel place (c :: cs) ↔ CompletesLabel .afterNameChar cs := by
  have hne := ne_hyphen_of_isNameChar hc
  have hchars : (∀ d ∈ c :: cs, InLabel d) ↔ ∀ d ∈ cs, InLabel d := by
    rw [List.forall_mem_cons]
    exact and_iff_right (.inl hc)
  have hlast := getLast?_cons_ne hne cs
  cases place with
  | labelStart =>
      constructor
      · intro h
        exact ⟨hchars.1 h.chars, hlast.1 h.last⟩
      · rintro ⟨h, hend⟩
        exact ⟨⟨List.cons_ne_nil c cs, hchars.2 h⟩, fun heq => hne (Option.some.inj heq),
          hlast.2 hend⟩
  | afterNameChar => exact and_congr hchars hlast
  | afterHyphen =>
      constructor
      · rintro ⟨h, hend⟩
        exact ⟨hchars.1 h.chars, hlast.1 hend⟩
      · rintro ⟨h, hend⟩
        exact ⟨⟨List.cons_ne_nil c cs, hchars.2 h⟩, hlast.2 hend⟩

theorem getLast?_hyphen :
    ('-' :: cs).getLast? ≠ some '-' ↔ cs ≠ [] ∧ cs.getLast? ≠ some '-' := by
  cases cs with
  | nil => simp
  | cons next cs => simp [List.getLast?_cons_cons]

/-- A hyphen goes with every place but the start of a label. -/
theorem completesLabel_hyphen :
    CompletesLabel place ('-' :: cs) ↔ place ≠ .labelStart ∧ CompletesLabel .afterHyphen cs := by
  have hchars : (∀ d ∈ '-' :: cs, InLabel d) ↔ ∀ d ∈ cs, InLabel d := by
    rw [List.forall_mem_cons]
    exact and_iff_right (.inr rfl)
  have hrest : (∀ d ∈ '-' :: cs, InLabel d) ∧ ('-' :: cs).getLast? ≠ some '-' ↔
      CompletesLabel .afterHyphen cs := by
    rw [hchars, getLast?_hyphen]
    constructor
    · rintro ⟨h, hne, hend⟩
      exact ⟨⟨hne, h⟩, hend⟩
    · rintro ⟨h, hend⟩
      exact ⟨h.chars, h.ne_nil, hend⟩
  cases place with
  | labelStart =>
      constructor
      · intro h
        exact absurd rfl h.head
      · rintro ⟨h, -⟩
        exact absurd rfl h
  | afterNameChar => exact hrest.trans (and_iff_right nofun).symm
  | afterHyphen =>
      rw [← hrest]
      constructor
      · rintro ⟨h, hend⟩
        exact ⟨nofun, h.chars, hend⟩
      · rintro ⟨-, h, hend⟩
        exact ⟨⟨List.cons_ne_nil _ cs, h⟩, hend⟩

/-- No other character does. -/
theorem CompletesLabel.inLabel (h : CompletesLabel place (c :: cs)) : InLabel c := by
  cases place with
  | labelStart => exact h.chars c List.mem_cons_self
  | afterNameChar => exact h.1 c List.mem_cons_self
  | afterHyphen => exact h.1.chars c List.mem_cons_self

/-- The check accepts a text just if it completes the label under way, and then the name. -/
theorem isNameFrom_iff :
    isNameFrom place dotted cs = true ↔ CompletesName (CompletesLabel place) IsLabel dotted cs := by
  induction cs generalizing place dotted with
  | nil =>
      rw [completesName_nil, completesLabel_nil, isNameFrom, Bool.and_eq_true, decide_eq_true_iff]
  | cons c cs ih =>
      rw [isNameFrom]
      by_cases hname : isNameChar c = true
      · have hpoint : c ≠ '.' := by
          rintro rfl
          exact absurd hname (by decide)
        rw [if_pos hname, ih, completesName_cons hpoint]
        exact completesName_congr fun _ => (completesLabel_nameChar hname).symm
      rw [if_neg hname]
      by_cases hhyphen : c = '-'
      · subst hhyphen
        rw [if_pos rfl, Bool.and_eq_true, ih, completesName_cons (by decide)]
        by_cases hplace : place = .labelStart
        · rw [completesName_congr fun _ => completesLabel_hyphen]
          simp [hplace, completesName_false]
        · rw [completesName_congr fun _ => completesLabel_hyphen]
          simp [hplace]
      rw [if_neg hhyphen]
      by_cases hpoint : c = '.'
      · subst hpoint
        rw [if_pos rfl, Bool.and_eq_true, ih, completesName_point, completesLabel_nil,
          decide_eq_true_iff]
        exact Iff.rfl
      · rw [if_neg hpoint, completesName_cons hpoint]
        refine iff_of_false Bool.false_ne_true (completesName_false fun piece h => ?_)
        exact h.inLabel.elim hname hhyphen

/-- The rest of a part of an encoded name. -/
def CompletesPart (inPart : Bool) (cs : List Char) : Prop :=
  (inPart = true ∨ cs ≠ []) ∧ ∀ c ∈ cs, InLabel c

theorem completesPart_cons (hc : InLabel c) :
    CompletesPart inPart (c :: cs) ↔ CompletesPart true cs := by
  simp [CompletesPart, hc]

theorem completesPart_start : CompletesPart false cs ↔ IsPart cs := by
  constructor
  · rintro ⟨hne, h⟩
    exact ⟨hne.resolve_left Bool.false_ne_true, h⟩
  · intro h
    exact ⟨.inr h.ne_nil, h.chars⟩

theorem isEncodedNameFrom_iff : isEncodedNameFrom inPart dotted cs = true ↔
    CompletesName (CompletesPart inPart) IsPart dotted cs := by
  induction cs generalizing inPart dotted with
  | nil =>
      rw [completesName_nil, isEncodedNameFrom, Bool.and_eq_true]
      simp [CompletesPart]
  | cons c cs ih =>
      have hinLabel : (isNameChar c || decide (c = '-')) = true ↔ InLabel c := by
        rw [Bool.or_eq_true, decide_eq_true_iff]
        exact Iff.rfl
      rw [isEncodedNameFrom]
      by_cases hc : InLabel c
      · have hpoint : c ≠ '.' := by
          rintro rfl
          exact point_not_inLabel hc
        rw [if_pos (hinLabel.2 hc), ih, completesName_cons hpoint]
        exact completesName_congr fun _ => (completesPart_cons hc).symm
      rw [if_neg (mt hinLabel.1 hc)]
      by_cases hpoint : c = '.'
      · subst hpoint
        rw [if_pos rfl, Bool.and_eq_true, ih, completesName_point,
          completesName_congr fun _ => completesPart_start]
        simp [CompletesPart]
      · rw [if_neg hpoint, completesName_cons hpoint]
        refine iff_of_false Bool.false_ne_true (completesName_false fun piece h => hc ?_)
        exact h.2 c List.mem_cons_self

/-- A domain name is made of labels, or its mark is followed by parts. -/
theorem isDomainName_iff : isDomainName cs = true ↔
    IsDotted IsLabel cs ∨ ∃ rest, cs = "xn--".toList ++ rest ∧ IsDotted IsPart rest := by
  have hname : isNameFrom .labelStart false cs = true ↔ IsDotted IsLabel cs :=
    isNameFrom_iff.trans completesName_start
  have hencoded (rest : List Char) :
      isEncodedNameFrom false false rest = true ↔ IsDotted IsPart rest := by
    rw [isEncodedNameFrom_iff, completesName_congr fun _ => completesPart_start]
    exact completesName_start
  rw [isDomainName, Bool.or_eq_true, hname]
  apply or_congr Iff.rfl
  cases hcut : Text.dropPrefix? "xn--".toList cs with
  | none =>
      refine iff_of_false Bool.false_ne_true ?_
      rintro ⟨rest, rfl, -⟩
      rw [Text.dropPrefix?_append] at hcut
      cases hcut
  | some rest =>
      obtain rfl := Text.dropPrefix?_eq_some hcut
      constructor
      · intro h
        exact ⟨rest, rfl, (hencoded rest).1 h⟩
      · rintro ⟨rest', heq, h⟩
        rw [List.append_cancel_left heq]
        exact (hencoded rest').2 h

end Checks

section Pattern

variable {kind : Language Char} {cs : List Char}

/-- The words of one character with a given property. -/
def single (P : Char → Prop) : Language Char :=
  {word | ∃ c, word = [c] ∧ P c}

/-- A letter or digit, which a hyphen may follow where another letter or digit comes later. -/
def labelPattern : Language Char :=
  single (isNameChar · = true) * (1 + (single InLabel)∗ * single (isNameChar · = true))

/-- One or more letters, digits and hyphens. -/
def partPattern : Language Char :=
  single InLabel * (single InLabel)∗

/-- One or more words with a point behind each, and one more word. -/
def dottedPattern (kind : Language Char) : Language Char :=
  kind * single (· = '.') * (kind * single (· = '.'))∗ * kind

/-- Labels, or the mark of an encoded name and parts. -/
def namePattern : Language Char :=
  dottedPattern labelPattern + {"xn--".toList} * dottedPattern partPattern

/-- The words of characters with a property. -/
theorem mem_kstar_single {P : Char → Prop} : cs ∈ (single P)∗ ↔ ∀ c ∈ cs, P c := by
  constructor
  · rintro h
    obtain ⟨words, rfl, hwords⟩ := Language.mem_kstar.1 h
    intro c hc
    obtain ⟨word, hword, hmem⟩ := List.mem_flatten.1 hc
    obtain ⟨d, rfl, hd⟩ := hwords word hword
    rwa [List.mem_singleton.1 hmem]
  · intro h
    refine Language.mem_kstar.2 ⟨cs.map fun c => [c], ?_, ?_⟩
    · exact (List.flatMap_singleton' cs).symm
    · rw [List.forall_mem_map]
      exact fun c hc => ⟨c, rfl, h c hc⟩

theorem mem_partPattern : cs ∈ partPattern ↔ IsPart cs := by
  rw [partPattern, Language.mem_mul]
  constructor
  · rintro ⟨_, ⟨c, rfl, hc⟩, rest, hrest, rfl⟩
    exact ⟨List.cons_ne_nil c rest, List.forall_mem_cons.2 ⟨hc, mem_kstar_single.1 hrest⟩⟩
  · intro h
    obtain ⟨c, rest, rfl⟩ := List.exists_cons_of_ne_nil h.ne_nil
    obtain ⟨hc, hrest⟩ := List.forall_mem_cons.1 h.chars
    exact ⟨[c], ⟨c, rfl, hc⟩, rest, mem_kstar_single.2 hrest, rfl⟩

theorem mem_labelPattern : cs ∈ labelPattern ↔ IsLabel cs := by
  rw [labelPattern, Language.mem_mul]
  constructor
  · rintro ⟨_, ⟨c, rfl, hc⟩, rest, hrest, rfl⟩
    have hhead : ([c] ++ rest).head? ≠ some '-' :=
      fun heq => ne_hyphen_of_isNameChar hc (Option.some.inj heq)
    rcases (Language.mem_add _ _ _).1 hrest with rfl | h
    · exact ⟨⟨List.cons_ne_nil c _, List.forall_mem_singleton.2 (.inl hc)⟩, hhead, hhead⟩
    · obtain ⟨inner, hinner, _, ⟨d, rfl, hd⟩, rfl⟩ := Language.mem_mul.1 h
      refine ⟨⟨List.cons_ne_nil c _, ?_⟩, hhead, ?_⟩
      · rw [List.singleton_append, List.forall_mem_cons, List.forall_mem_append,
          List.forall_mem_singleton]
        exact ⟨.inl hc, mem_kstar_single.1 hinner, .inl hd⟩
      · rw [← List.append_assoc, List.getLast?_concat]
        exact fun heq => ne_hyphen_of_isNameChar hd (Option.some.inj heq)
  · intro h
    obtain ⟨c, rest, rfl⟩ := List.exists_cons_of_ne_nil h.ne_nil
    obtain ⟨hc, hrest⟩ := List.forall_mem_cons.1 h.chars
    have hfirst : isNameChar c = true :=
      hc.resolve_right fun heq => h.head (congrArg some heq)
    refine ⟨[c], ⟨c, rfl, hfirst⟩, rest, ?_, rfl⟩
    rcases List.eq_nil_or_concat rest with rfl | ⟨inner, d, rfl⟩
    · exact (Language.mem_add _ _ _).2 (.inl rfl)
    · rw [List.concat_eq_append, List.forall_mem_append, List.forall_mem_singleton] at hrest
      have hlast : isNameChar d = true := by
        apply hrest.2.resolve_right
        rintro rfl
        apply h.last
        rw [List.concat_eq_append, ← List.cons_append, List.getLast?_concat]
      refine (Language.mem_add _ _ _).2 (.inr (Language.mem_mul.2 ?_))
      exact ⟨inner, mem_kstar_single.2 hrest.1, [d], ⟨d, rfl, hlast⟩,
        (List.concat_eq_append).symm⟩

/-- Words with a point behind each are cut into these words. -/
theorem splitOn_flatten {words : List (List Char)} {last : List Char}
    (hwords : ∀ word ∈ words, word ∈ kind * single (· = '.')) (hlast : last ∈ kind)
    (hpoint : ∀ word ∈ kind, '.' ∉ word) :
    ∃ pieces, (words.flatten ++ last).splitOn '.' = pieces ++ [last] ∧
      pieces.length = words.length ∧ ∀ piece ∈ pieces, piece ∈ kind := by
  induction words with
  | nil =>
      refine ⟨[], ?_, rfl, fun _ h => nomatch h⟩
      exact Text.splitOn_of_not_mem (hpoint last hlast)
  | cons word words ih =>
      rw [List.forall_mem_cons] at hwords
      obtain ⟨pieces, hsplit, hlength, hpieces⟩ := ih hwords.2
      obtain ⟨piece, hpiece, _, ⟨_, rfl, rfl⟩, rfl⟩ := Language.mem_mul.1 hwords.1
      refine ⟨piece :: pieces, ?_, congrArg (· + 1) hlength,
        List.forall_mem_cons.2 ⟨hpiece, hpieces⟩⟩
      calc
        (((piece ++ ['.']) :: words).flatten ++ last).splitOn '.'
          = (piece ++ '.' :: (words.flatten ++ last)).splitOn '.' := by simp
        _ = piece.splitOn '.' ++ (words.flatten ++ last).splitOn '.' :=
          Text.splitOn_append_cons _ _ _
        _ = piece :: pieces ++ [last] := by
          rw [Text.splitOn_of_not_mem (hpoint piece hpiece), hsplit]
          rfl

/-- Words joined with points are words with a point behind each, and the last word. -/
theorem intercalate_mem {pieces : List (List Char)} (hne : pieces ≠ [])
    (h : ∀ piece ∈ pieces, piece ∈ kind) :
    List.intercalate ['.'] pieces ∈ (kind * single (· = '.'))∗ * kind := by
  induction pieces with
  | nil => exact absurd rfl hne
  | cons piece others ih =>
      obtain ⟨hpiece, hothers⟩ := List.forall_mem_cons.1 h
      cases others with
      | nil =>
          rw [List.intercalate_singleton]
          exact Language.mem_mul.2 ⟨[], Language.nil_mem_kstar _, piece, hpiece, rfl⟩
      | cons next others =>
          obtain ⟨front, hfront, last, hlast, heq⟩ :=
            Language.mem_mul.1 (ih (List.cons_ne_nil next others) hothers)
          obtain ⟨words, rfl, hwords⟩ := Language.mem_kstar.1 hfront
          have hword : piece ++ ['.'] ∈ kind * single (· = '.') :=
            Language.mem_mul.2 ⟨piece, hpiece, ['.'], ⟨'.', rfl, rfl⟩, rfl⟩
          refine Language.mem_mul.2 ⟨((piece ++ ['.']) :: words).flatten,
            Language.join_mem_kstar (List.forall_mem_cons.2 ⟨hword, hwords⟩), last, hlast, ?_⟩
          rw [List.intercalate_cons_cons, ← heq]
          simp

/-- The words of the pattern are the texts that are cut into words of its kind, two at least. -/
theorem mem_dottedPattern (hpoint : ∀ word ∈ kind, '.' ∉ word) :
    cs ∈ dottedPattern kind ↔ IsDotted (· ∈ kind) cs := by
  rw [dottedPattern, mul_assoc, Language.mem_mul]
  constructor
  · rintro ⟨word, hword, rest, hrest, rfl⟩
    obtain ⟨front, hfront, last, hlast, rfl⟩ := Language.mem_mul.1 hrest
    obtain ⟨words, rfl, hwords⟩ := Language.mem_kstar.1 hfront
    obtain ⟨pieces, hsplit, hlength, hpieces⟩ :=
      splitOn_flatten (List.forall_mem_cons.2 ⟨hword, hwords⟩) hlast hpoint
    rw [List.flatten_cons, List.append_assoc] at hsplit
    rw [IsDotted, hsplit, List.length_append, hlength, List.forall_mem_append,
      List.forall_mem_singleton]
    exact ⟨by simp, hpieces, hlast⟩
  · rintro ⟨htwo, hpieces⟩
    obtain ⟨piece, others, hsplit⟩ := List.exists_cons_of_ne_nil (List.splitOn_ne_nil '.' cs)
    rw [hsplit] at htwo hpieces
    obtain ⟨next, others, rfl⟩ := List.exists_cons_of_length_pos (Nat.lt_of_succ_lt_succ htwo)
    obtain ⟨hpiece, hothers⟩ := List.forall_mem_cons.1 hpieces
    refine ⟨piece ++ ['.'], Language.mem_mul.2 ⟨piece, hpiece, ['.'], ⟨'.', rfl, rfl⟩, rfl⟩, _,
      intercalate_mem (List.cons_ne_nil next others) hothers, ?_⟩
    rw [← List.intercalate_cons_cons, ← hsplit, List.intercalate_splitOn]

/-- The check in one pass accepts the words of the pattern. -/
theorem isDomainName_iff_mem_namePattern : isDomainName cs = true ↔ cs ∈ namePattern := by
  have hpoint {word : List Char} (h : IsPart word) : '.' ∉ word :=
    fun hmem => point_not_inLabel (h.chars '.' hmem)
  have hlabel (cs : List Char) : IsDotted IsLabel cs ↔ cs ∈ dottedPattern labelPattern := by
    rw [mem_dottedPattern fun word hword => hpoint (mem_labelPattern.1 hword).toIsPart]
    simp only [IsDotted, mem_labelPattern]
  have hpart (cs : List Char) : IsDotted IsPart cs ↔ cs ∈ dottedPattern partPattern := by
    rw [mem_dottedPattern fun word hword => hpoint (mem_partPattern.1 hword)]
    simp only [IsDotted, mem_partPattern]
  rw [isDomainName_iff, namePattern, Language.mem_add, Language.mem_mul]
  apply or_congr (hlabel cs)
  constructor
  · rintro ⟨rest, rfl, hrest⟩
    exact ⟨_, rfl, rest, (hpart rest).1 hrest, rfl⟩
  · rintro ⟨_, rfl, rest, hrest, rfl⟩
    exact ⟨rest, rfl, (hpart rest).2 hrest⟩

end Pattern

section Hosts

variable {cs inner : List Char}

/-- A text between square brackets is no IP address. -/
theorem isIpAddress_bracket (rest : List Char) : isIpAddress ('[' :: rest) = false := by
  have hnone (h : isIpAddress ('[' :: rest) = true) : False := by
    rw [isIpAddress, Bool.or_eq_true] at h
    rcases h with h | h
    · obtain ⟨ip, hip⟩ := Option.isSome_iff_exists.1 h
      exact absurd (Ipv4.mem_of_read? hip '[' List.mem_cons_self) (by decide)
    · obtain ⟨ip, hip⟩ := Option.isSome_iff_exists.1 h
      have hchar := Ipv6.inText_of_read? hip '[' List.mem_cons_self
      exact absurd hchar (by unfold Ipv6.InText; decide)
  exact Bool.eq_false_iff.2 hnone

theorem unbracket_bracketed (inner : List Char) : unbracket ('[' :: (inner ++ [']'])) = inner := by
  rw [unbracket, List.getLast?_concat, if_pos rfl, List.dropLast_concat]

/-- Without brackets, a text is what it was, or what stood between them. -/
theorem unbracket_cases (cs : List Char) :
    unbracket cs = cs ∨ cs = '[' :: (unbracket cs ++ [']']) := by
  unfold unbracket
  split
  · rename_i rest
    split
    · rename_i hlast
      obtain ⟨inner, rfl⟩ := List.getLast?_eq_some_iff.1 hlast
      rw [List.dropLast_concat]
      exact .inr rfl
    · exact .inl rfl
  · exact .inl rfl

/-- A text is an IP address without its brackets just if it is one as it stands or with a pair of
brackets taken off. -/
theorem isIpAddress_unbracket : isIpAddress (unbracket cs) = true ↔
    ∃ inner, (inner = cs ∨ '[' :: (inner ++ [']']) = cs) ∧ isIpAddress inner = true := by
  constructor
  · intro h
    exact ⟨unbracket cs, (unbracket_cases cs).imp id Eq.symm, h⟩
  · rintro ⟨inner, rfl | rfl, h⟩
    · have hopen : inner.head? ≠ some '[' := by
        intro hhead
        obtain ⟨rest, rfl⟩ := List.head?_eq_some_iff.1 hhead
        rw [isIpAddress_bracket] at h
        cases h
      rcases unbracket_cases inner with hself | hbracket
      · rwa [hself]
      · exact absurd (congrArg List.head? hbracket) hopen
    · rwa [unbracket_bracketed]

/-- A text names a host just if it is the text of an IP address, as it stands or between square
brackets, or if in lower case it is labels or the mark of an encoded name and parts. The latter two
are the words of a regular pattern. -/
theorem isHost_iff (cs : List Char) :
    (isHost cs = true ↔
      (∃ inner, (inner = cs ∨ '[' :: (inner ++ [']']) = cs) ∧
        ((∃ ip, Ipv4.read? inner = some ip) ∨ ∃ ip, Ipv6.read? inner = some ip)) ∨
      IsDotted IsLabel (cs.map Text.lowerAscii) ∨
      ∃ rest, cs.map Text.lowerAscii = "xn--".toList ++ rest ∧ IsDotted IsPart rest) ∧
    (isHost cs = true ↔
      (∃ inner, (inner = cs ∨ '[' :: (inner ++ [']']) = cs) ∧
        ((∃ ip, Ipv4.read? inner = some ip) ∨ ∃ ip, Ipv6.read? inner = some ip)) ∨
      cs.map Text.lowerAscii ∈ namePattern) := by
  rw [← isDomainName_iff_mem_namePattern, ← isDomainName_iff, isHost, Bool.or_eq_true,
    isIpAddress_unbracket]
  simp only [isIpAddress, Bool.or_eq_true, Option.isSome_iff_exists, and_self]

end Hosts

end LinkSieve.Address
