/-!
# File paths

Paths as texts with slashes between names. Slashes at the end and repeated ones mean nothing, nor
does a name of one dot except at the front.
-/

namespace LinkSieve.Files.Path

/-- A path in reverse without the slashes and dots at its end that mean nothing. -/
def trimTail : List Char → List Char
  | ['/'] => ['/']
  | '/' :: rest => trimTail rest
  | '.' :: '/' :: rest => trimTail ('/' :: rest)
  | cs => cs

/-- The directory that holds what a path names; a path of no names has none. -/
def parent? (path : String) : Option String :=
  let reversed := trimTail path.toList.reverse
  if reversed = [] || reversed = ['/'] then none
  else some (String.ofList (trimTail (reversed.dropWhile (· ≠ '/'))).reverse)

/-- The last name of a path, unless it stands for a directory by its place. -/
def fileName (path : String) : List Char :=
  let name := ((trimTail path.toList.reverse).takeWhile (· ≠ '/')).reverse
  if name = ['.'] || name = ['.', '.'] then [] else name

/-- What follows the last point of the last name; a point at the front of a name does not count. -/
def extension? (path : String) : Option String :=
  let name := fileName path
  let after := (name.reverse.takeWhile (· ≠ '.')).reverse
  if after.length + 1 < name.length then some (String.ofList after) else none

/-- A path with the home directory in place of a tilde that stands for it. -/
def expandHome (home : Option String) (path : String) : String :=
  match home, path.toList with
  | some home, ['~'] => home
  | some home, '~' :: '/' :: rest => home ++ String.ofList ('/' :: rest)
  | _, _ => path

end LinkSieve.Files.Path
