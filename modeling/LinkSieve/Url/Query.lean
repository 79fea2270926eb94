import LinkSieve.Table
import LinkSieve.Text.Split
import LinkSieve.Url.Reading

/-!
# Query parameters

The pairs of names and values that a query holds, and the query that holds given pairs. In a
query an ampersand separates pairs, the first equals sign ends a name, a plus sign is a space,
and everything else may be escaped.
-/

namespace LinkSieve

namespace Url

/-- What a name or a value of a query stands for. -/
def decodeForm (cs : List Char) : List Char :=
  let spaced := cs.map fun c => if c = '+' then ' ' else c
  Text.Utf8.decodeLossy (Text.Percent.decode (Text.Utf8.encode spaced))

/-- One pair of a query; without an equals sign the value is empty. -/
def readPair (piece : List Char) : String × String :=
  let (name, value) := Text.cutOption '=' piece
  (String.ofList (decodeForm name), String.ofList (decodeForm (value.getD [])))

/-- The pairs of a query in their order. Empty pieces are no pairs. -/
def readPairs (query : List Char) : List (String × String) :=
  ((query.splitOn '&').filter (!·.isEmpty)).map readPair

/-- The pairs of the query of a URL. -/
def queryPairs (url : Url) : List (String × String) :=
  readPairs (url.query.getD "").toList

/-- Whether a name or a value has to escape a character. -/
def escapedInForm (c : Char) : Bool :=
  !(c.isAlphanum || c = '*' || c = '-' || c = '.' || c = '_')

/-- A name or a value as it is written in a query. -/
def encodeForm (cs : List Char) : List Char :=
  (Text.Percent.encode (fun c => escapedInForm c && c ≠ ' ') cs).map
    fun c => if c = ' ' then '+' else c

/-- One pair as it is written in a query. -/
def pairText (pair : String × String) : List Char :=
  encodeForm pair.1.toList ++ '=' :: encodeForm pair.2.toList

/-- Pairs as a query. -/
def pairsText (pairs : List (String × String)) : List Char :=
  List.intercalate ['&'] (pairs.map pairText)

end Url

/-- Parameters with all their values, each list in the order in which the values were given. -/
abbrev Query := Table (List String)

/-- Parameters with one value each. -/
abbrev Params := Table String

namespace Query

/-- Parameters with one more value at a name. -/
def add (q : Query) (name value : String) : Query :=
  q.insert name ((q.get? name).getD [] ++ [value])

/-- Parameters from pairs of names and values. -/
def ofPairs (pairs : List (String × String)) : Query :=
  pairs.foldl (fun q pair => q.add pair.1 pair.2) Table.empty

/-- The parameters of the query of a URL. -/
def ofUrl (url : Url) : Query :=
  ofPairs url.queryPairs

/-- The first value of each parameter. -/
def first (q : Query) : Params :=
  q.filterMap fun _ values => values.head?

/-- The pairs of names and values in the order of names. -/
def pairs (q : Query) : List (String × String) :=
  q.entries.flatMap fun e => e.2.map (e.1, ·)

/-- Parameters as a query, in the order of names. -/
def text (q : Query) : List Char :=
  Url.pairsText q.pairs

end Query

end LinkSieve
