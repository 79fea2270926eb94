import LinkSieve.Text.Blank
import LinkSieve.Text.Label
import LinkSieve.Text.Lowercase
import LinkSieve.Text.Split

/-!
# Banned words

A list of lower-case words that must not occur in the label of a link. A word is looked for in the
label without its escapes and in lower case, so neither hides it.
-/

namespace LinkSieve.Policy

/-- Banned words in the order in which they are looked for. -/
structure WordList where
  words : List String
deriving DecidableEq, Repr

namespace WordList

/-- The list without words, which bans nothing. -/
def empty : WordList := ⟨[]⟩

/-- A term as it is looked for. -/
def normalize (term : String) : String :=
  String.ofList (Text.lower (Text.trim term.toList))

/-- A list of terms, without those that are blank. -/
def ofTerms (terms : List String) : WordList :=
  ⟨(terms.map normalize).filter (· ≠ "")⟩

/-- Reads a list of terms, one to a line. A line that starts with a number sign is a comment, and
a byte order mark at the front is passed over. -/
def read (content : String) : WordList :=
  let cs := match content.toList with
    | '\uFEFF' :: rest => rest
    | cs => cs
  let lines := (cs.splitOn '\n').map Text.trim
  ofTerms ((lines.filter fun line => !line.isEmpty && line.head? ≠ some '#').map String.ofList)

/-- The first banned word that occurs in a label. -/
def find? (list : WordList) (label : String) : Option String :=
  if label.isEmpty then none
  else
    let shown := Text.lower (Text.Label.decode label.toList)
    list.words.find? fun word => Text.occursIn word.toList shown

end WordList

end LinkSieve.Policy
