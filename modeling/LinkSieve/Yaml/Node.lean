import LinkSieve.Yaml.Token

/-!
# Nodes of YAML

The tree that the tokens of a YAML text make up. A node that an alias stands for is the node that
was last given the name, so a tree holds no aliases. A text has to be a single tree.

## Implementation notes

The readers below call each other and carry fuel. Every call but one in a row takes a token, so
twice the number of tokens suffices.
-/

namespace LinkSieve.Yaml

/-- A node of the tree. A scalar keeps its tag and whether it was plain, which together with its
text determine its value. -/
inductive Node where
  | scalar (tag : Option String) (plain : Bool) (text : String)
  | list (items : List Node)
  | table (entries : List (Node × Node))
deriving Repr

namespace Node

instance : Inhabited Node := ⟨.list []⟩

/-- The node that stands where nothing is written. -/
def blank : Node := .scalar none true ""

/-- The tokens that are left, with the nodes that have names and the meanings of tag handles. -/
structure Source where
  tokens : List Token
  anchors : List (String × Node) := []
  handles : List (String × String) := [("!", "!"), ("!!", "tag:yaml.org,2002:")]

namespace Source

/-- The source after one token. -/
def drop (s : Source) : Source := { s with tokens := s.tokens.drop 1 }

/-- Whether the next token is one of a list, or the end. -/
def stands (s : Source) (ends : List Token) : Bool := s.tokens.head?.all ends.contains

/-- Whether a given token is next. -/
def sees (s : Source) (t : Token) : Bool := s.tokens.head? = some t

end Source

/-- The full tag of a handle and a suffix. -/
def fullTag? (s : Source) (handle suffix : String) : Option String :=
  if handle.isEmpty then some suffix
  else (s.handles.lookup handle).map (· ++ suffix)

/-- The name and the tag before a node, in either order. -/
def readProperties? (s : Source) : Option (Option String × Option String × Source) :=
  match s.tokens with
  | .anchor name :: .tag handle suffix :: rest | .tag handle suffix :: .anchor name :: rest =>
    (fullTag? s handle suffix).map fun tag => (some name, some tag, { s with tokens := rest })
  | .anchor name :: rest => some (some name, none, { s with tokens := rest })
  | .tag handle suffix :: rest =>
    (fullTag? s handle suffix).map fun tag => (none, some tag, { s with tokens := rest })
  | _ => some (none, none, s)

mutual

/-- Reads a node. Blocks may stand only within blocks; the items of a list may stand at the
indentation of the key that they belong to. -/
def read? : Nat → Bool → Bool → Source → Option (Node × Source)
  | 0, _, _, _ => none
  | fuel + 1, block, atKey, s =>
    match s.tokens with
    | .alias name :: _ => (s.anchors.lookup name).map fun node => (node, s.drop)
    | _ => do
      let (name, tag, s) ← readProperties? s
      let (node, s) ← readContent? fuel block atKey (name.isSome || tag.isSome) tag s
      match name with
      | some name => return (node, { s with anchors := (name, node) :: s.anchors })
      | none => return (node, s)

/-- Reads a node after its name and its tag; if it has one of them, it may be blank. -/
def readContent? : Nat → Bool → Bool → Bool → Option String → Source → Option (Node × Source)
  | 0, _, _, _, _, _ => none
  | fuel + 1, block, atKey, marked, tag, s =>
    match s.tokens with
    | .item :: _ =>
      if atKey then readKeyItems? fuel [] s
      else if marked then some (.scalar tag true "", s) else none
    | .scalar plain text :: _ => some (.scalar tag plain text, s.drop)
    | .openList :: _ => readFlowItems? fuel true [] s.drop
    | .openTable :: _ => readFlowEntries? fuel true [] s.drop
    | .openBlockList :: _ =>
      if block then readItems? fuel [] s.drop
      else if marked then some (.scalar tag true "", s) else none
    | .openBlockTable :: _ =>
      if block then readEntries? fuel [] s.drop
      else if marked then some (.scalar tag true "", s) else none
    | _ => if marked then some (.scalar tag true "", s) else none

/-- Reads the items of a block until it closes. -/
def readItems? : Nat → List Node → Source → Option (Node × Source)
  | 0, _, _ => none
  | fuel + 1, done, s =>
    if s.sees .item then
      if s.drop.sees .item || s.drop.sees .closeBlock then readItems? fuel (blank :: done) s.drop
      else do
        let (node, s) ← read? fuel true false s.drop
        readItems? fuel (node :: done) s
    else if s.sees .closeBlock then some (.list done.reverse, s.drop)
    else none

/-- Reads the items at the indentation of a key. -/
def readKeyItems? : Nat → List Node → Source → Option (Node × Source)
  | 0, _, _ => none
  | fuel + 1, done, s =>
    if s.sees .item then
      if [Token.item, .key, .value, .closeBlock].any s.drop.sees then
        readKeyItems? fuel (blank :: done) s.drop
      else do
        let (node, s) ← read? fuel true false s.drop
        readKeyItems? fuel (node :: done) s
    else some (.list done.reverse, s)

/-- Reads what follows a mark of a key or a value in a block; nothing need stand there. -/
def readMarked? : Nat → Source → Option (Node × Source)
  | 0, _ => none
  | fuel + 1, s =>
    if [Token.key, .value, .closeBlock].any s.sees then some (blank, s)
    else read? fuel true true s

/-- Reads the entries of a block until it closes. -/
def readEntries? : Nat → List (Node × Node) → Source → Option (Node × Source)
  | 0, _, _ => none
  | fuel + 1, done, s =>
    if s.sees .key then do
      let (key, s) ← readMarked? fuel s.drop
      let (value, s) ← if s.sees .value then readMarked? fuel s.drop else some (blank, s)
      readEntries? fuel ((key, value) :: done) s
    else if s.sees .closeBlock then some (.table done.reverse, s.drop)
    else none

/-- Reads a part of a flow collection; nothing need stand before the given tokens. -/
def readPart? : Nat → List Token → Source → Option (Node × Source)
  | 0, _, _ => none
  | fuel + 1, ends, s =>
    if ends.any s.sees then some (blank, s) else read? fuel false false s

/-- Reads the items of a flow list after its first mark. An item may be a single entry. -/
def readFlowItems? : Nat → Bool → List Node → Source → Option (Node × Source)
  | 0, _, _, _ => none
  | fuel + 1, first, done, s =>
    if s.sees .closeList then some (.list done.reverse, s.drop)
    else
      let separated := first || s.sees .comma
      let s := if first then s else s.drop
      if !separated then none
      else if s.sees .closeList then some (.list done.reverse, s.drop)
      else if s.sees .key then do
        let (key, s) ← readPart? fuel [.value, .comma, .closeList] s.drop
        let (value, s) ←
          if s.sees .value then readPart? fuel [.comma, .closeList] s.drop else some (blank, s)
        readFlowItems? fuel false (.table [(key, value)] :: done) s
      else do
        let (node, s) ← read? fuel false false s
        readFlowItems? fuel false (node :: done) s

/-- Reads the entries of a flow table after its first mark. An entry may be a key alone. -/
def readFlowEntries? : Nat → Bool → List (Node × Node) → Source → Option (Node × Source)
  | 0, _, _, _ => none
  | fuel + 1, first, done, s =>
    if s.sees .closeTable then some (.table done.reverse, s.drop)
    else
      let separated := first || s.sees .comma
      let s := if first then s else s.drop
      if !separated then none
      else if s.sees .closeTable then some (.table done.reverse, s.drop)
      else if s.sees .key then do
        let (key, s) ← readPart? fuel [.value, .comma, .closeTable] s.drop
        let (value, s) ←
          if s.sees .value then readPart? fuel [.comma, .closeTable] s.drop else some (blank, s)
        readFlowEntries? fuel false ((key, value) :: done) s
      else do
        let (key, s) ← read? fuel false false s
        readFlowEntries? fuel false ((key, blank) :: done) s

end

/-- Reads the directives before a document: at most one version, which has to be known, and
handles for tags, each given once. -/
def readDirectives? : List Token → Bool → List (String × String) →
    Option (List (String × String) × List Token)
  | .version major minor :: rest, seen, handles =>
    if seen || major ≠ 1 || (minor ≠ 1 && minor ≠ 2) then none
    else readDirectives? rest true handles
  | .tagHandle handle uri :: rest, seen, handles =>
    if (handles.lookup handle).isSome then none
    else readDirectives? rest seen ((handle, uri) :: handles)
  | tokens, _, handles => some (handles, tokens)

/-- Reads a node where a document starts; nothing need stand there. -/
def readRoot? (s : Source) : Option (Node × Source) :=
  if s.tokens.isEmpty || [Token.documentStart, .documentEnd].any s.sees then some (blank, s)
  else read? (4 * s.tokens.length + 4) true false s

/-- The tree that tokens make up. -/
def ofTokens? (tokens : List Token) : Option Node := do
  let (handles, rest) ← readDirectives? tokens false []
  let source : Source := { tokens := rest }
  let source := { source with handles := handles ++ source.handles }
  let (node, s) ← match tokens.head?, rest with
    | none, _ => some (blank, source)
    | some _, .documentStart :: _ => readRoot? source.drop
    | some (.version _ _), _ | some (.tagHandle _ _), _ => none
    | some _, _ => read? (4 * rest.length + 4) true false source
  if s.tokens.all (· = .documentEnd) then return node else none

/-- The tree that a text writes. -/
def ofText? (cs : List Char) : Option Node :=
  (Token.scan? cs).bind ofTokens?

end Node

end LinkSieve.Yaml
