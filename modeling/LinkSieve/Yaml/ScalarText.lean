import LinkSieve.Decimal.Digits
import LinkSieve.Yaml.Cursor

/-!
# Texts of YAML scalars

A scalar is plain, in quotes of either kind, or a block of indented lines. Within a scalar a
single line break is a space and further ones are kept, except in blocks that are taken as they
stand. Every reader gives `none` for a text that is not well formed.

## Implementation notes

Readers that go on for an unknown number of rounds carry fuel; callers pass the number of
characters that are left, and every round takes at least one of them.
-/

namespace LinkSieve.Yaml

/-- What separates two words of a scalar: spaces on one line, or line breaks, of which the first
one counts less than the others. -/
structure Gap where
  broken : Bool := false
  spaces : List Char := []
  first : List Char := []
  more : List Char := []
deriving Repr

/-- The text that a gap counts as. -/
def Gap.text (g : Gap) : List Char :=
  if !g.broken then g.spaces
  else if g.first = ['\n'] then (if g.more.isEmpty then [' '] else g.more)
  else g.first ++ g.more

/-- Reads a gap. A tab before a given column, at the start of a line, is an error. -/
def readGap : Nat → Nat → Gap → Cursor → Option (Gap × Cursor)
  | 0, _, g, c => some (g, c)
  | fuel + 1, column, g, c =>
    match c.rest.head? with
    | none => some (g, c)
    | some x =>
      if isGap x then
        if g.broken && c.column < column && x = '\t' then none
        else
          let spaces := if g.broken then g.spaces else g.spaces ++ [x]
          readGap fuel column { g with spaces } (c.skip 1)
      else if isBreak x then
        let (br, next) := c.readBreak
        let g := if g.broken then { g with more := g.more ++ br }
          else { g with broken := true, spaces := [], first := br }
        readGap fuel column g next
      else some (g, c)

/-- The characters that enclose and separate the parts of a flow collection. -/
def isFlowMark (c : Char) : Bool :=
  ",[]".toList.contains c || c = '\x7b' || c = '\x7d'

/-- A word of a plain scalar, which ends at a gap, at a colon before one, or at a flow mark. In a
flow collection a colon must not stand right before a flow mark. -/
def readPlainWord (flow : Bool) : Nat → Cursor → Option (List Char × Cursor)
  | 0, c => some ([], c)
  | fuel + 1, c =>
    match c.rest.head? with
    | none => some ([], c)
    | some x =>
      if isGap x || isBreak x then some ([], c)
      else if flow && x = ':' && c.has (fun y => isFlowMark y || y = '?') 1 then none
      else if (x = ':' && c.endsWord 1) || (flow && isFlowMark x) then some ([], c)
      else (readPlainWord flow fuel (c.skip 1)).map fun (xs, next) => (x :: xs, next)

/-- The rest of a plain scalar after a gap. Gives its text, whether a line break was passed since
its last word, and the place after it. -/
def readPlain (flow : Bool) (indent : Nat) :
    Nat → List Char → Gap → Cursor → Option (List Char × Bool × Cursor)
  | 0, text, g, c => some (text, g.broken, c)
  | fuel + 1, text, g, c =>
    if c.atAnyMark || c.sees '#' then some (text, g.broken, c)
    else do
      let (word, c) ← readPlainWord flow c.rest.length c
      let text := if word.isEmpty then text else text ++ g.text ++ word
      let g := if word.isEmpty then g else {}
      if !c.has (fun x => isGap x || isBreak x) 0 then some (text, g.broken, c)
      else
        let (g, c) ← readGap (c.rest.length + 1) indent g c
        if !flow && c.column < indent then some (text, g.broken, c)
        else readPlain flow indent fuel text g c

/-- The character that a letter after a backslash stands for. -/
def escaped? (c : Char) : Option Char :=
  match c with
  | '0' => some '\x00'
  | 'a' => some '\x07'
  | 'b' => some '\x08'
  | 't' | '\t' => some '\t'
  | 'n' => some '\n'
  | 'v' => some '\x0b'
  | 'f' => some '\x0c'
  | 'r' => some '\r'
  | 'e' => some '\x1b'
  | ' ' => some ' '
  | '"' => some '"'
  | '/' => some '/'
  | '\\' => some '\\'
  | 'N' => some '\u0085'
  | '_' => some '\u00a0'
  | 'L' => some '\u2028'
  | 'P' => some '\u2029'
  | _ => none

/-- The number of hexadecimal digits that follow a letter after a backslash. -/
def codeLength? (c : Char) : Option Nat :=
  match c with
  | 'x' => some 2
  | 'u' => some 4
  | 'U' => some 8
  | _ => none

/-- Reads an escape after its backslash. -/
def readEscape (c : Cursor) : Option (Char × Cursor) := do
  let letter ← c.at? 0
  match codeLength? letter with
  | none => return (← escaped? letter, c.skip 1)
  | some n =>
    let digits := (c.rest.drop 1).take n
    let value ← Decimal.readNat? 16 digits
    if digits.length = n && value.isValidChar then return (Char.ofNat value, c.skip (n + 1))
    else none

/-- A word between quotes. The flag in the answer says that it ends in a line break that is
escaped and so does not count. -/
def readQuotedWord (quote : Char) : Nat → Cursor → Option (List Char × Bool × Cursor)
  | 0, _ => none
  | fuel + 1, c =>
    match c.rest with
    | [] => some ([], false, c)
    | x :: after =>
      if isGap x || isBreak x then some ([], false, c)
      else if x = quote then
        if quote = '\x27' && after.head? = some '\x27' then
          (readQuotedWord quote fuel (c.skip 2)).map fun (xs, b, next) => (x :: xs, b, next)
        else some ([], false, c)
      else if quote = '"' && x = '\\' then
        if after.head?.any isBreak then some ([], true, (c.skip 1).readBreak.2)
        else do
          let (y, next) ← readEscape (c.skip 1)
          let (ys, b, next) ← readQuotedWord quote fuel next
          return (y :: ys, b, next)
      else (readQuotedWord quote fuel (c.skip 1)).map fun (xs, b, next) => (x :: xs, b, next)

/-- The rest of a scalar in quotes, with the place after the closing one. -/
def readQuoted (quote : Char) : Nat → Cursor → Option (List Char × Cursor)
  | 0, _ => none
  | fuel + 1, c =>
    if c.atAnyMark || c.rest.isEmpty then none
    else do
      let (word, joined, c) ← readQuotedWord quote (c.rest.length + 1) c
      if c.sees quote then return (word, c.skip 1)
      let (g, c) ← readGap (c.rest.length + 1) 0 { broken := joined } c
      let (text, c) ← readQuoted quote fuel c
      return (word ++ g.text ++ text, c)

/-- How a block ends: without line breaks, with one, or with all of them. -/
inductive Chomp where
  | strip
  | clip
  | keep
deriving DecidableEq, Repr

/-- Reads the sign that says how a block ends. -/
def readChomp (c : Cursor) : Chomp × Cursor :=
  if c.sees '+' then (.keep, c.skip 1)
  else if c.sees '-' then (.strip, c.skip 1)
  else (.clip, c)

/-- Reads the digit that gives the indentation of a block; zero is an error. -/
def readIndent (c : Cursor) : Option (Option Nat × Cursor) :=
  match c.at? 0 with
  | some x =>
    match Decimal.digit? 10 x with
    | some 0 => none
    | some n => some (some n, c.skip 1)
    | none => some (none, c)
  | none => some (none, c)

/-- The marks at the head of a block, in either order. -/
def readBlockHead (c : Cursor) : Option (Chomp × Option Nat × Cursor) := do
  let (chomp, c) := readChomp c
  let (indent, c) ← readIndent c
  let (chomp, c) := if chomp = .clip && indent.isSome then readChomp c else (chomp, c)
  let c := c.skipWhile isGap
  let c := if c.sees '#' then c.skipWhile (!isBreak ·) else c
  if c.endsLine then return (chomp, indent, c.readBreak.2) else none

/-- Reads indentation and empty lines before a line of a block. Without a given indentation it
also finds the deepest column reached. -/
def readBlockBreaks : Nat → Option Nat → Nat → List Char → Cursor →
    Option (List Char × Nat × Cursor)
  | 0, _, deepest, breaks, c => some (breaks, deepest, c)
  | fuel + 1, indent, deepest, breaks, c =>
    let spaces := (c.rest.takeWhile (· = ' ')).length
    let c := c.skip (match indent with
      | some n => min spaces (n - c.column)
      | none => spaces)
    let deepest := max deepest c.column
    if (indent.all (c.column < ·)) && c.sees '\t' then none
    else if c.has isBreak 0 then
      let (br, next) := c.readBreak
      readBlockBreaks fuel indent deepest (breaks ++ br) next
    else some (breaks, deepest, c)

/-- The lines of a block. Carries the text, the break after the last line, the empty lines after
that, and whether the last line started with a gap. -/
def readBlockLines (literal : Bool) (indent : Nat) :
    Nat → List Char → List Char → List Char → Bool → Cursor →
    Option (List Char × List Char × List Char × Cursor)
  | 0, text, last, breaks, _, c => some (text, last, breaks, c)
  | fuel + 1, text, last, breaks, gapped, c =>
    if c.column ≠ indent || c.rest.isEmpty then some (text, last, breaks, c)
    else
      let gap := c.has isGap 0
      let fold := !literal && last = ['\n'] && !gapped && !gap
      let joint := if fold then (if breaks.isEmpty then [' '] else []) else last
      let (line, c) := c.takeWhile (!isBreak ·)
      let (br, c) := c.readBreak
      match readBlockBreaks (c.rest.length + 1) (some indent) 0 [] c with
      | none => none
      | some (next, _, c) =>
        readBlockLines literal indent fuel (text ++ joint ++ breaks ++ line) br next gap c

/-- Reads a block after its first mark; `parent` is the indentation of what holds it. -/
def readBlock (literal : Bool) (parent : Option Nat) (c : Cursor) :
    Option (List Char × Cursor) := do
  let (chomp, given, c) ← readBlockHead c
  let given := given.map (parent.getD 0 + ·)
  let (breaks, deepest, c) ← readBlockBreaks (c.rest.length + 1) given 0 [] c
  let least := match parent with
    | some n => n + 1
    | none => 1
  let indent := given.getD (max deepest least)
  let (text, last, breaks, c) ←
    readBlockLines literal indent (c.rest.length + 1) [] [] breaks false c
  let last := if chomp = .strip then [] else last
  let breaks := if chomp = .keep then breaks else []
  return (text ++ last ++ breaks, c)

end LinkSieve.Yaml
