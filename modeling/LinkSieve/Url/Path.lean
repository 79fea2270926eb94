import LinkSieve.Url.Escaped

/-!
# Paths of URLs

A path is a slash and segments with slashes between them. A segment of one dot is left out, and a
segment of two dots takes the segment before it away, unless that one names a drive, also one that a
backslash and more follow; a dot may be written as its escape.
-/

namespace LinkSieve.Url.Path

/-- Whether a segment stands for the directory itself. -/
def isHere (segment : List Char) : Bool :=
  [".", "%2e", "%2E"].any (·.toList = segment)

/-- Whether a segment stands for the parent directory. -/
def isParent (segment : List Char) : Bool :=
  ["..", ".%2e", ".%2E", "%2e.", "%2E.", "%2e%2e", "%2e%2E", "%2E%2e", "%2E%2E"].any
    (·.toList = segment)

/-- Whether a segment names a drive: a letter and a colon or a bar. -/
def isDrive (segment : List Char) : Bool :=
  match segment with
  | [letter, mark] => letter.isAlpha && (mark = ':' || mark = '|')
  | _ => false

/-- Whether a segment is never taken away: it names a drive, or starts with a drive and a
backslash. -/
def isLasting (segment : List Char) : Bool :=
  match segment with
  | letter :: mark :: rest => isDrive [letter, mark] && rest.head?.all (· = '\\')
  | _ => false

/-- The segments, in reverse, after the last one has been taken away. -/
def parent (done : List (List Char)) : List (List Char) :=
  match done with
  | last :: before => if isLasting last then done else before
  | [] => []

/-- Adds segments to those already there, which are given in reverse. A path that ends in a dot
segment ends in a slash. -/
def resolve (done : List (List Char)) : List (List Char) → List (List Char)
  | [] => done.reverse
  | [last] =>
    if isParent last then ([] :: parent done).reverse
    else if isHere last then ([] :: done).reverse
    else (last :: done).reverse
  | segment :: rest =>
    if isParent segment then resolve (parent done) rest
    else if isHere segment then resolve done rest
    else resolve (segment :: done) rest

/-- The text of a path of given segments. -/
def ofSegments (segments : List (List Char)) : List Char :=
  '/' :: List.intercalate ['/'] segments

/-- The path that a text without its first slash stands for. -/
def normalize (cs : List Char) : List Char :=
  ofSegments (resolve [] ((Text.Percent.encode Escaped.inPath cs).splitOn '/'))

/-- Segments of a file path as they are taken: the first one may name a drive, which is written
with a colon and ends the segment. -/
def driveFirst : List (List Char) → List (List Char)
  | (letter :: ':' :: c :: cs) :: rest =>
    if letter.isAlpha then [letter, ':'] :: (c :: cs) :: rest
    else (letter :: ':' :: c :: cs) :: rest
  | [letter, mark] :: rest =>
    if isDrive [letter, mark] then [letter, ':'] :: rest else [letter, mark] :: rest
  | segments => segments

/-- The path of a file that a text without its first slash stands for. -/
def normalizeFile (cs : List Char) : List Char :=
  let segments := (Text.Percent.encode Escaped.inPath cs).splitOn '/'
  let path := ofSegments (resolve [] (driveFirst segments))
  '/' :: path.dropWhile (· = '/')

/-- Whether the path of a file starts with a drive as its whole first segment. -/
def startsWithDrive (cs : List Char) : Bool :=
  isDrive (cs.takeWhile (· ≠ '/'))

end LinkSieve.Url.Path
