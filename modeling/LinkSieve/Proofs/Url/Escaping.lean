import LinkSieve.Proofs.Text.Label
import LinkSieve.Proofs.Url.Query
import LinkSieve.Proofs.Url.Reading

/-!
# Parts of a URL before and after they are escaped

A URL keeps its parts in escaped form, and they are decoded later. The characters that are escaped
in a query or in credentials mean nothing to decoding, so what such a part stands for can be read
from the text as it was given.
-/

namespace LinkSieve.Url

theorem isActive_eq_false {escaped : Char → Bool} {c : Char} (hpercent : escaped '%' = false)
    (hplus : escaped '+' = false) (halphanum : ∀ d, d.isAlphanum = true → escaped d = false)
    (h : escaped c = true) : Text.Percent.isActive c = false := by
  rw [Bool.eq_false_iff]
  intro hactive
  simp only [Text.Percent.isActive, Bool.or_eq_true, decide_eq_true_iff,
    Option.isSome_iff_exists] at hactive
  have hc : escaped c = false := by
    rcases hactive with (rfl | rfl) | ⟨v, hv⟩
    · exact hpercent
    · exact hplus
    · exact halphanum c (Text.Percent.isAlphanum_of_digit? hv)
  rw [h] at hc
  cases hc

theorem partly_encode_inQuery (web : Bool) (cs : List Char) :
    Text.Percent.Partly cs (Text.Percent.encode (Escaped.inQuery web) cs) := by
  have hpercent : Escaped.inQuery web '%' = false := by cases web <;> decide
  have hplus : Escaped.inQuery web '+' = false := by cases web <;> decide
  exact Text.Percent.partly_encode
    (fun _ => isActive_eq_false hpercent hplus fun _ => inQuery_of_isAlphanum) cs

theorem partly_encode_inUserinfo (cs : List Char) :
    Text.Percent.Partly cs (Text.Percent.encode Escaped.inUserinfo cs) :=
  Text.Percent.partly_encode
    (fun _ => isActive_eq_false (by decide) (by decide) fun _ => inUserinfo_of_isAlphanum) cs

/-- Plus signs may be read as spaces before or after a text is escaped. -/
theorem partly_spaced {cs ds : List Char} (h : Text.Percent.Partly cs ds) :
    Text.Percent.Partly (Text.Label.spaced cs) (Text.Label.spaced ds) := by
  induction h with
  | nil => exact .nil
  | keep c _ ih => exact .keep _ ih
  | @escape c cs ds hactive _ ih =>
      have hplus : '+' ∉ (String.utf8EncodeChar c).flatMap Text.Percent.escape := by
        intro hmem
        obtain ⟨b, -, hb⟩ := List.mem_flatMap.1 hmem
        exact absurd (Text.Percent.mem_escapeChars_of_mem_escape hb) (by decide)
      have hc : c ≠ '+' := by
        rintro rfl
        cases hactive
      have hspaced :
          Text.Label.spaced ((String.utf8EncodeChar c).flatMap Text.Percent.escape ++ ds) =
          (String.utf8EncodeChar c).flatMap Text.Percent.escape ++ Text.Label.spaced ds := by
        rw [Text.Label.spaced, List.map_append]
        exact congrArg (· ++ Text.Label.spaced ds) (Text.Label.spaced_eq_self hplus)
      rw [hspaced, Text.Label.spaced, List.map_cons, if_neg hc]
      exact .escape hactive ih

/-- What a name or a value stands for is the same before and after its query is escaped. -/
theorem decodeForm_encode (web : Bool) (cs : List Char) :
    decodeForm (Text.Percent.encode (Escaped.inQuery web) cs) = decodeForm cs := by
  have hdecode := (partly_spaced (partly_encode_inQuery web cs)).decode_eq
  exact congrArg Text.Utf8.decodeLossy hdecode

theorem readPair_encode (web : Bool) (piece : List Char) :
    readPair (Text.Percent.encode (Escaped.inQuery web) piece) = readPair piece := by
  have hequals : Text.Percent.IsSeparator (Escaped.inQuery web) '=' :=
    ⟨by cases web <;> decide, by decide⟩
  have hvalue (value : Option (List Char)) :
      decodeForm ((value.map (Text.Percent.encode (Escaped.inQuery web))).getD []) =
        decodeForm (value.getD []) := by
    cases value with
    | none => rfl
    | some cs => exact decodeForm_encode web cs
  simp only [readPair, hequals.cutOption, decodeForm_encode, hvalue]

/-- The pairs of a query are the same before and after it is escaped. -/
theorem readPairs_encode (web : Bool) (query : List Char) :
    readPairs (Text.Percent.encode (Escaped.inQuery web) query) = readPairs query := by
  have hand : Text.Percent.IsSeparator (Escaped.inQuery web) '&' :=
    ⟨by cases web <;> decide, by decide⟩
  have hempty : (fun piece : List Char => !piece.isEmpty) ∘
      Text.Percent.encode (Escaped.inQuery web) = fun piece => !piece.isEmpty := by
    funext piece
    cases piece with
    | nil => rfl
    | cons c piece =>
        have hne : Text.Percent.encode (Escaped.inQuery web) (c :: piece) ≠ [] :=
          Text.Percent.encode_ne_nil (List.cons_ne_nil c piece)
        simp [hne]
  rw [readPairs, hand.splitOn, List.filter_map, hempty, List.map_map, readPairs]
  exact List.map_congr_left fun piece _ => readPair_encode web piece

end LinkSieve.Url
