import LinkSieve.Toml.Tree
import LinkSieve.Toml.Word

/-!
# Reading TOML

The document that a TOML text holds. A text is a sequence of lines, each a header, a value under a
key, or blank; only lists and long texts go over several lines.

## Implementation notes

Readers of values call each other and carry fuel. Each round takes a character, so the length of
the text suffices; a value may nest no deeper than eighty levels.
-/

namespace LinkSieve.Toml

/-- Whether a character separates words on a line. -/
def isGap (c : Char) : Bool := c = ' ' || c = '\t'

/-- Whether a character may stand in a text or a comment. -/
def isPrinted (c : Char) : Bool :=
  c = '\t' || (0x20 ≤ c.toNat && c.toNat ≠ 0x7F)

/-- What follows a line break, if there is one. -/
def lineBreak? (cs : List Char) : Option (List Char) :=
  match cs with
  | '\n' :: rest => some rest
  | '\r' :: '\n' :: rest => some rest
  | _ => none

/-- What follows gaps. -/
def skipGaps (cs : List Char) : List Char := cs.dropWhile isGap

/-- What follows a comment, if there is one. -/
def skipComment (cs : List Char) : List Char :=
  match cs with
  | '#' :: rest => rest.dropWhile isPrinted
  | cs => cs

/-- What follows gaps, comments and line breaks. -/
def skipLines : Nat → List Char → List Char
  | 0, cs => cs
  | fuel + 1, cs =>
    let after := skipComment (skipGaps cs)
    match lineBreak? after with
    | some rest => skipLines fuel rest
    | none => after

/-- What follows the end of a line, which has to come next but for gaps and a comment. -/
def endLine? (cs : List Char) : Option (List Char) :=
  match skipComment (skipGaps cs) with
  | [] => some []
  | after => lineBreak? after

/-- Reads an escape after its backslash. -/
def readEscape? (cs : List Char) : Option (Char × List Char) :=
  let code (count : Nat) (rest : List Char) : Option (Char × List Char) := do
    let digits := rest.take count
    let n ← Decimal.readNat? 16 digits
    if digits.length = count && n.isValidChar then return (Char.ofNat n, rest.drop count)
    else none
  match cs with
  | 'b' :: rest => some ('\x08', rest)
  | 't' :: rest => some ('\t', rest)
  | 'n' :: rest => some ('\n', rest)
  | 'f' :: rest => some ('\x0c', rest)
  | 'r' :: rest => some ('\r', rest)
  | '"' :: rest => some ('"', rest)
  | '\\' :: rest => some ('\\', rest)
  | 'u' :: rest => code 4 rest
  | 'U' :: rest => code 8 rest
  | _ => none

/-- The rest of a text on one line, after its opening quote; only a double quote allows escapes. -/
def readLine? (quote : Char) : Nat → List Char → Option (List Char × List Char)
  | 0, _ => none
  | fuel + 1, cs =>
    match cs with
    | [] => none
    | c :: rest =>
      if c = quote then some ([], rest)
      else if c = '\\' && quote = '"' then do
        let (e, rest) ← readEscape? rest
        let (text, rest) ← readLine? quote fuel rest
        return (e :: text, rest)
      else if isPrinted c then
        (readLine? quote fuel rest).map fun (text, rest) => (c :: text, rest)
      else none

/-- What follows a backslash at the end of a line in a long text: the line break and all gaps and
line breaks after it. -/
def skipFold? (cs : List Char) : Option (List Char) :=
  (lineBreak? (skipGaps cs)).map fun rest =>
    rest.dropWhile fun c => isGap c || c = '\n' || c = '\r'

/-- The rest of a long text, after its opening quotes. Up to two quotes may stand in it, also right
before the closing ones. -/
def readLong? (quote : Char) : Nat → List Char → Option (List Char × List Char)
  | 0, _ => none
  | fuel + 1, cs =>
    match cs with
    | [] => none
    | c :: rest =>
      if c = quote then
        let count := (cs.takeWhile (· = quote)).length
        if count < 3 then
          (readLong? quote fuel (cs.drop count)).map fun (text, after) =>
            (List.replicate count quote ++ text, after)
        else if count < 6 then some (List.replicate (count - 3) quote, cs.drop count)
        else some ([quote, quote], cs.drop 5)
      else if c = '\\' && quote = '"' then
        match skipFold? rest with
        | some after => readLong? quote fuel after
        | none => do
          let (e, after) ← readEscape? rest
          let (text, after) ← readLong? quote fuel after
          return (e :: text, after)
      else match lineBreak? cs with
        | some after => (readLong? quote fuel after).map fun (text, after) => ('\n' :: text, after)
        | none =>
          if isPrinted c then
            (readLong? quote fuel rest).map fun (text, after) => (c :: text, after)
          else none

/-- Reads a text after one quote. Three quotes open a long text, whose first line break does not
count. -/
def readText? (quote : Char) (cs : List Char) : Option (List Char × List Char) :=
  match cs with
  | a :: b :: rest =>
    if a = quote && b = quote then
      readLong? quote (cs.length + 1) ((lineBreak? rest).getD rest)
    else readLine? quote (cs.length + 1) cs
  | cs => readLine? quote (cs.length + 1) cs

/-- Whether a character may stand in a key without quotes. -/
def isKeyChar (c : Char) : Bool := c.isAlphanum || c = '_' || c = '-'

/-- Reads one part of a key. -/
def readKeyPart? (cs : List Char) : Option (String × List Char) :=
  match cs with
  | '"' :: rest =>
    (readLine? '"' (rest.length + 1) rest).map fun (k, rest) => (String.ofList k, rest)
  | '\x27' :: rest =>
    (readLine? '\x27' (rest.length + 1) rest).map fun (k, rest) => (String.ofList k, rest)
  | cs =>
    let part := cs.takeWhile isKeyChar
    if part.isEmpty then none else some (String.ofList part, cs.dropWhile isKeyChar)

/-- Reads a key of one or more parts with points between them. -/
def readKey? : Nat → List Char → Option (List String × List Char)
  | 0, _ => none
  | fuel + 1, cs => do
    let (part, rest) ← readKeyPart? (skipGaps cs)
    match skipGaps rest with
    | '.' :: rest => do
      let (parts, rest) ← readKey? fuel rest
      return (part :: parts, rest)
    | rest => return ([part], rest)

/-- Whether a character may stand in a word. -/
def isWordChar (c : Char) : Bool :=
  c.isAlphanum || c = '_' || c = '-' || c = '+' || c = '.' || c = ':'

/-- Reads a word. A date and a time may have a space between them. -/
def readWord? (cs : List Char) : Option (Document × List Char) :=
  let word := cs.takeWhile isWordChar
  let rest := cs.dropWhile isWordChar
  match rest with
  | ' ' :: c :: after =>
    if isDate word && Decimal.isDigit 10 c then
      let time := (c :: after).takeWhile isWordChar
      (word? (word ++ ' ' :: time)).map (·, (c :: after).dropWhile isWordChar)
    else (word? word).map (·, rest)
  | _ => (word? word).map (·, rest)

/-- The deepest that values may nest. -/
def maxDepth : Nat := 80

mutual

/-- Reads a value that stands within a number of others. -/
def readValue? : Nat → Nat → List Char → Option (Document × List Char)
  | 0, _, _ => none
  | fuel + 1, depth, cs =>
    match cs with
    | '"' :: rest => (readText? '"' rest).map fun (s, rest) => (.text (String.ofList s), rest)
    | '\x27' :: rest => (readText? '\x27' rest).map fun (s, rest) => (.text (String.ofList s), rest)
    | '[' :: rest => if depth < maxDepth then readItems? fuel (depth + 1) [] rest else none
    | '\x7b' :: rest =>
      if depth < maxDepth then
        match skipGaps rest with
        | '\x7d' :: rest => some (.table [], rest)
        | rest => readEntries? fuel (depth + 1) [] rest
      else none
    | cs => readWord? cs

/-- Reads the items of a list up to its end; a comma may follow the last one. -/
def readItems? : Nat → Nat → List Document → List Char → Option (Document × List Char)
  | 0, _, _, _ => none
  | fuel + 1, depth, done, cs =>
    match skipLines (cs.length + 1) cs with
    | ']' :: rest => some (.list done.reverse, rest)
    | cs => do
      let (item, rest) ← readValue? fuel depth cs
      match skipLines (rest.length + 1) rest with
      | ',' :: rest => readItems? fuel depth (item :: done) rest
      | ']' :: rest => return (.list (item :: done).reverse, rest)
      | _ => none

/-- Reads the entries of a table on one line up to its end. -/
def readEntries? : Nat → Nat → Entries → List Char → Option (Document × List Char)
  | 0, _, _, _ => none
  | fuel + 1, depth, entries, cs => do
    let (path, rest) ← readKey? (cs.length + 1) cs
    let key ← path.getLast?
    match skipGaps rest with
    | '=' :: rest => do
      let (v, rest) ← readValue? fuel depth (skipGaps rest)
      let entries ← Entries.define path.dropLast key v .written entries
      match skipGaps rest with
      | ',' :: rest => readEntries? fuel depth entries rest
      | '\x7d' :: rest => return (.table (Tree.entries entries), rest)
      | _ => none
    | _ => none

end

/-- The tables read so far, and the header that the next lines belong to. -/
structure State where
  root : Entries := []
  header : List String := []

/-- Reads a header after its brackets, of which `close` are the closing ones. -/
def readHeader? (close cs : List Char) (f : String → Origin → Entries → Option Entries)
    (s : State) : Option (State × List Char) := do
  let (path, rest) ← readKey? (cs.length + 1) cs
  let key ← path.getLast?
  if close.isPrefixOf rest then
    let root ← Entries.alter (f key) false path.dropLast .written s.root
    let rest ← endLine? (rest.drop close.length)
    return ({ root, header := path }, rest)
  else none

/-- Reads a value under its key. -/
def readDefinition? (cs : List Char) (s : State) : Option (State × List Char) := do
  let (path, rest) ← readKey? (cs.length + 1) cs
  let key ← path.getLast?
  match rest with
  | '=' :: rest => do
    let rest := skipGaps rest
    let (v, rest) ← readValue? (rest.length + 1) 0 rest
    let define := Entries.define path.dropLast key v
    let root ← Entries.alter define false s.header .written s.root
    let rest ← endLine? rest
    return ({ s with root }, rest)
  | _ => none

/-- Reads lines up to the end of the text. -/
def readLines? : Nat → State → List Char → Option Entries
  | 0, _, _ => none
  | fuel + 1, s, cs =>
    match skipLines (cs.length + 1) cs with
    | [] => some s.root
    | '[' :: '[' :: rest => do
      let (s, rest) ← readHeader? [']', ']'] rest Entries.addTable s
      readLines? fuel s rest
    | '[' :: rest => do
      let (s, rest) ← readHeader? [']'] rest Entries.openTable s
      readLines? fuel s rest
    | cs => do
      let (s, rest) ← readDefinition? cs s
      readLines? fuel s rest

/-- Reads the text of a document. A byte order mark at the front is passed over. -/
def read? (content : String) : Option Document :=
  let cs := match content.toList with
    | '\uFEFF' :: rest => rest
    | cs => cs
  (readLines? (cs.length + 1) {} cs).map fun entries => .table (Tree.entries entries)

end LinkSieve.Toml
