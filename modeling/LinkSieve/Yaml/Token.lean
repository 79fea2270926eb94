import LinkSieve.Yaml.ScalarText

/-!
# Tokens of YAML

A YAML text as marks, names and scalars. Indentation shows as marks of its own: a block opens
where a line is indented deeper than the one that holds it, and closes where a later line is not.
A key of a mapping is only known as one when the colon after it is found, so places where a key
may have started are remembered until then.
-/

namespace LinkSieve.Yaml

/-- A mark, a name or a scalar. -/
inductive Token where
  | version (major minor : Nat)
  | tagHandle (handle uri : String)
  | documentStart
  | documentEnd
  | openBlockList
  | openBlockTable
  | closeBlock
  | openList
  | closeList
  | openTable
  | closeTable
  | item
  | comma
  | key
  | value
  | alias (name : String)
  | anchor (name : String)
  | tag (handle suffix : String)
  | scalar (plain : Bool) (text : String)
deriving DecidableEq, Repr

/-- A place where a key may have started: how many tokens come before it, where it is, and whether
the place can be nothing but a key. -/
structure KeyPlace where
  needed : Bool
  number : Nat
  index : Nat
  line : Nat
  column : Nat
deriving Repr

/-- The state of reading tokens. Tokens are kept in reverse; the places for keys are one for each
flow collection that is open and one for the blocks around them. -/
structure Reader where
  cursor : Cursor
  flow : Nat := 0
  indent : Option Nat := none
  outer : List (Option Nat) := []
  keyAllowed : Bool := true
  places : List (Option KeyPlace) := [none]
  tokens : List Token := []
  count : Nat := 0

namespace Reader

/-- Adds a token. -/
def add (r : Reader) (t : Token) : Reader :=
  { r with tokens := t :: r.tokens, count := r.count + 1 }

/-- Adds a token after a given number of them. -/
def insert (r : Reader) (number : Nat) (t : Token) : Reader :=
  let after := r.count - number
  { r with tokens := r.tokens.take after ++ t :: r.tokens.drop after, count := r.count + 1 }

/-- Moves on by a number of characters. -/
def skip (r : Reader) (n : Nat) : Reader := { r with cursor := r.cursor.skip n }

/-- Whether what stands here is a block and not part of a flow collection. -/
def inBlock (r : Reader) : Bool := r.flow = 0

/-- Whether a column is deeper than the indentation of the block that is open. -/
def isDeeper (r : Reader) (column : Nat) : Bool := r.indent.all (· < column)

/-- Opens a block at a column if it is deeper than the block that is open. -/
def openBlock (r : Reader) (column number : Nat) (t : Token) : Reader :=
  if r.inBlock && r.isDeeper column then
    { r.insert number t with indent := some column, outer := r.indent :: r.outer }
  else r

/-- Closes the blocks that are deeper than a column, or all blocks. -/
def closeBlocks (r : Reader) (column : Option Nat) : Reader :=
  if r.inBlock then go r.outer r else r
where
  /-- Closes blocks as long as their indentation calls for it. -/
  go : List (Option Nat) → Reader → Reader
    | outer, r =>
      match r.indent with
      | none => r
      | some n =>
        if column.all (· < n) then
          match outer with
          | [] => { r.add .closeBlock with indent := none, outer := [] }
          | next :: rest => go rest { r.add .closeBlock with indent := next, outer := rest }
        else r

/-- The innermost place for a key. -/
def place (r : Reader) : Option KeyPlace := r.places.head?.join

/-- The state without the innermost place for a key, unless that has to be one. -/
def dropPlace? (r : Reader) : Option Reader :=
  match r.place with
  | some p => if p.needed then none else some { r with places := none :: r.places.drop 1 }
  | none => some r

/-- Remembers that a key may start here, where that is allowed. -/
def savePlace? (r : Reader) : Option Reader :=
  if r.keyAllowed then do
    let c := r.cursor
    let needed := r.inBlock && r.indent = some c.column
    let r ← r.dropPlace?
    return { r with places := some ⟨needed, r.count, c.index, c.line, c.column⟩ :: r.places.drop 1 }
  else some r

/-- The longest distance between the start of a key and its colon. -/
def maxKeyLength : Nat := 1024

/-- Forgets the places for keys that the reader has left behind: a key and its colon stand on one
line and not far apart. -/
def dropStale? (r : Reader) : Option Reader := do
  let places ← r.places.mapM fun place =>
    match place with
    | some p =>
      if p.line < r.cursor.line || p.index + maxKeyLength < r.cursor.index then
        (if p.needed then none else some none)
      else some (some p)
    | none => some none
  return { r with places }

/-- Passes over spaces, comments and line breaks. A new line in a block may start with a key. -/
def skipBlank : Nat → Reader → Reader
  | 0, r => r
  | fuel + 1, r =>
    let c := r.cursor
    let c := if c.index = 0 && c.sees '\uFEFF' then c.skip 1 else c
    let tabs := !r.inBlock || !r.keyAllowed
    let c := c.skipWhile fun x => x = ' ' || (tabs && x = '\t')
    let c := if c.sees '#' then c.skipWhile (!isBreak ·) else c
    if c.has isBreak 0 then
      skipBlank fuel
        { r with cursor := c.readBreak.2, keyAllowed := r.keyAllowed || r.inBlock }
    else { r with cursor := c }

/-- Reads a directive: a version, or a handle for tags. -/
def directive? (r : Reader) : Option Reader := do
  let r ← (r.closeBlocks none).dropPlace?
  let r := { r with keyAllowed := false }
  let (name, c) := (r.cursor.skip 1).takeWhile isNameChar
  if name.isEmpty || !c.endsWord 0 then none
  let c := c.skipWhile isGap
  let (words, c) := c.takeWhile fun x => !isBreak x && x ≠ '#'
  let c := c.skipWhile (!isBreak ·)
  let words := (words.splitOn ' ').filter (!·.isEmpty)
  let r := { r with cursor := c.readBreak.2 }
  match String.ofList name, words with
  | "YAML", [version] =>
    match version.splitOn '.' with
    | [major, minor] =>
      return r.add (.version (← Decimal.readNat? 10 major) (← Decimal.readNat? 10 minor))
    | _ => none
  | "TAG", [handle, uri] => return r.add (.tagHandle (String.ofList handle) (String.ofList uri))
  | _, _ => none

/-- Reads a mark between documents. -/
def documentMark? (r : Reader) (t : Token) : Option Reader := do
  let r ← (r.closeBlocks none).dropPlace?
  return ({ r with keyAllowed := false }.skip 3).add t

/-- Reads the start of a flow collection. -/
def openFlow? (r : Reader) (t : Token) : Option Reader := do
  let r ← r.savePlace?
  let r := { r with places := none :: r.places, flow := r.flow + 1, keyAllowed := true }
  return (r.skip 1).add t

/-- Reads the end of a flow collection. -/
def closeFlow? (r : Reader) (t : Token) : Option Reader := do
  let r ← r.dropPlace?
  let places := if r.inBlock then r.places else r.places.drop 1
  let r := { r with places, flow := r.flow - 1, keyAllowed := false }
  return (r.skip 1).add t

/-- Reads a comma between the parts of a flow collection. -/
def comma? (r : Reader) : Option Reader := do
  let r ← r.dropPlace?
  return ({ r with keyAllowed := true }.skip 1).add .comma

/-- Reads the hyphen before an item of a block. -/
def item? (r : Reader) : Option Reader := do
  if r.inBlock && !r.keyAllowed then none
  let r := r.openBlock r.cursor.column r.count .openBlockList
  let r ← r.dropPlace?
  return ({ r with keyAllowed := true }.skip 1).add .item

/-- Reads the question mark before a key. -/
def key? (r : Reader) : Option Reader := do
  if r.inBlock && !r.keyAllowed then none
  let r := r.openBlock r.cursor.column r.count .openBlockTable
  let r ← r.dropPlace?
  return ({ r with keyAllowed := r.inBlock }.skip 1).add .key

/-- Reads the colon after a key, and marks the key if nothing did so before. -/
def value? (r : Reader) : Option Reader :=
  match r.place with
  | some p =>
    let r := (r.insert p.number .key).openBlock p.column p.number .openBlockTable
    some (({ r with places := none :: r.places.drop 1, keyAllowed := false }.skip 1).add .value)
  | none =>
    if r.inBlock && !r.keyAllowed then none
    else
      let r := r.openBlock r.cursor.column r.count .openBlockTable
      some (({ r with keyAllowed := r.inBlock }.skip 1).add .value)

/-- Reads the name of an anchor or an alias after its mark. -/
def anchor? (r : Reader) (t : String → Token) : Option Reader := do
  let r ← r.savePlace?
  let (name, c) := (r.cursor.skip 1).takeWhile isNameChar
  let ends := c.endsWord 0 || c.has (fun x => "?:,]%@".toList.contains x || x = '\x7d' ||
    x.toNat = 0x60) 0
  if name.isEmpty || !ends then none
  return { r with cursor := c, keyAllowed := false }.add (t (String.ofList name))

/-- Whether a character may stand in a tag; the flag is for tags between angle brackets. -/
def isTagChar (verbatim : Bool) (c : Char) : Bool :=
  isNameChar c || ";/?:@&=+$.!~*'()%".toList.contains c || (verbatim && ",[]".toList.contains c)

/-- Reads a tag: between angle brackets, or with a handle between exclamation marks, or after a
single one. -/
def tag? (r : Reader) : Option Reader := do
  let r ← r.savePlace?
  let c := r.cursor.skip 1
  let (handle, suffix, c) ←
    if c.sees '<' then do
      let (uri, c) := (c.skip 1).takeWhile (isTagChar true)
      if uri.isEmpty || !c.sees '>' then none
      pure ("", String.ofList uri, c.skip 1)
    else do
      let (name, after) := c.takeWhile isNameChar
      if after.sees '!' then do
        let (suffix, c) := (after.skip 1).takeWhile (isTagChar false)
        if suffix.isEmpty then none
        pure (String.ofList ('!' :: (name ++ ['!'])), String.ofList suffix, c)
      else
        let (suffix, c) := c.takeWhile (isTagChar false)
        if suffix.isEmpty then pure ("", "!", c) else pure ("!", String.ofList suffix, c)
  if !(c.endsWord 0 || (!r.inBlock && c.sees ',')) then none
  return { r with cursor := c, keyAllowed := false }.add (.tag handle suffix)

/-- Reads a block of lines after its mark. -/
def block? (r : Reader) (literal : Bool) : Option Reader := do
  let r ← r.dropPlace?
  let (text, c) ← readBlock literal r.indent (r.cursor.skip 1)
  return { r with cursor := c, keyAllowed := true }.add (.scalar false (String.ofList text))

/-- Reads a scalar in quotes. -/
def quoted? (r : Reader) (quote : Char) : Option Reader := do
  let r ← r.savePlace?
  let (text, c) ← readQuoted quote (r.cursor.rest.length + 1) (r.cursor.skip 1)
  return { r with cursor := c, keyAllowed := false }.add (.scalar false (String.ofList text))

/-- Reads a plain scalar. One that ends on another line leaves the reader where a key may start. -/
def plain? (r : Reader) : Option Reader := do
  let r ← r.savePlace?
  let indent := match r.indent with
    | some n => n + 1
    | none => 0
  let (text, broken, c) ← readPlain (!r.inBlock) indent (r.cursor.rest.length + 1) [] {} r.cursor
  return { r with cursor := c, keyAllowed := broken }.add (.scalar true (String.ofList text))

/-- Whether a plain scalar may start here. -/
def startsPlain (r : Reader) : Bool :=
  match r.cursor.rest.head? with
  | none => false
  | some x =>
    if isGap x || isBreak x then false
    else if x = '-' then !r.cursor.has isGap 1
    else if x = '?' || x = ':' then r.inBlock && !r.cursor.endsWord 1
    else !(",[]#&*!|>%@\"".toList.contains x || x = '\x27' || x = '\x7b' || x = '\x7d' ||
      x.toNat = 0x60)

/-- Reads the token that starts at the next character, of which there has to be one. -/
def next? (r : Reader) : Option Reader :=
  let c := r.cursor
  if c.column = 0 && c.sees '%' then r.directive?
  else if c.atMark '-' then r.documentMark? .documentStart
  else if c.atMark '.' then r.documentMark? .documentEnd
  else if c.sees '[' then r.openFlow? .openList
  else if c.sees '\x7b' then r.openFlow? .openTable
  else if c.sees ']' then r.closeFlow? .closeList
  else if c.sees '\x7d' then r.closeFlow? .closeTable
  else if c.sees ',' then r.comma?
  else if c.sees '-' && c.endsWord 1 then r.item?
  else if c.sees '?' && (!r.inBlock || c.endsWord 1) then r.key?
  else if c.sees ':' && (!r.inBlock || c.endsWord 1) then r.value?
  else if c.sees '*' then r.anchor? .alias
  else if c.sees '&' then r.anchor? .anchor
  else if c.sees '!' then r.tag?
  else if c.sees '|' && r.inBlock then r.block? true
  else if c.sees '>' && r.inBlock then r.block? false
  else if c.sees '\x27' then r.quoted? '\x27'
  else if c.sees '"' then r.quoted? '"'
  else if r.startsPlain then r.plain?
  else none

/-- Reads all tokens. Every round but the last takes a character, which bounds the fuel. -/
def run? : Nat → Reader → Option (List Token)
  | 0, _ => none
  | fuel + 1, r => do
    let r ← (r.skipBlank (r.cursor.rest.length + 1)).dropStale?
    if r.cursor.rest.isEmpty then
      let r ← (r.closeBlocks none).dropPlace?
      return r.tokens.reverse
    else
      let r ← (r.closeBlocks (some r.cursor.column)).next?
      run? fuel r

end Reader

/-- The tokens of a text. A byte order mark at its front does not count as a character. -/
def Token.scan? (cs : List Char) : Option (List Token) :=
  let cs := match cs with
    | '\uFEFF' :: rest => rest
    | cs => cs
  if cs.all isAllowed then Reader.run? (cs.length + 2) { cursor := ⟨cs, 0, 0, 0⟩ } else none

end LinkSieve.Yaml
