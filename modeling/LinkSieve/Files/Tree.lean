/-!
# File trees

The directories and files below a root, each at a place: the list of names that leads to it. A
path is walked name by name from the root or from the working directory, and every step of the
walk needs a directory to start from, so a path through a file or through nothing leads nowhere.
An operation that fails leaves the tree as it is, except that directories made on the way stay.
-/

namespace LinkSieve.Files

/-- The names that lead from the root to a file or a directory. -/
abbrev Place := List String

/-- What a place of a tree holds. -/
inductive Entry where
  | file (content : List UInt8)
  | directory
deriving DecidableEq, Repr

/-- Why a path leads to no place. -/
inductive Fault where
  | absent
  | notDirectory
  | unusable
deriving DecidableEq, Repr

/-- How an attempt to remove a file ends. -/
inductive Removal where
  | removed
  | absent
  | failed
deriving DecidableEq, Repr

/-- Whether a path can be walked at all: it is neither too long nor holds a null character. -/
def isUsablePath (path : String) : Bool :=
  path.utf8ByteSize < 4096 && !path.toList.contains '\x00'

/-- Whether a directory can hold an entry of this name. -/
def isUsableName (name : String) : Bool :=
  name.utf8ByteSize ≤ 255

/-- The names of a path with its slashes taken out. -/
def namesOf (path : String) : List String :=
  (path.toList.splitOn '/').map String.ofList

/-- A tree of directories and files, and its working directory. The root needs no entry. -/
structure Tree where
  entries : List (Place × Entry)
  here : Place
deriving DecidableEq, Repr

namespace Tree

/-- What a place holds. -/
def get? (t : Tree) (place : Place) : Option Entry :=
  if place = [] then some .directory else t.entries.lookup place

/-- A tree without what a place holds. -/
def erase (t : Tree) (place : Place) : Tree :=
  { t with entries := t.entries.filter (·.1 ≠ place) }

/-- A tree in which a place holds an entry. -/
def put (t : Tree) (place : Place) (entry : Entry) : Tree :=
  { t with entries := (place, entry) :: (t.erase place).entries }

/-- The tree of no more than an empty working directory. -/
def ofHere (here : Place) : Tree :=
  ⟨(List.range here.length).map fun n => (here.take (n + 1), .directory), here⟩

/-- The place that a name leads to from a place. -/
def step (t : Tree) (place : Place) (name : String) : Except Fault Place :=
  match t.get? place with
  | none => .error .absent
  | some (.file _) => .error .notDirectory
  | some .directory =>
    if name = "" || name = "." then .ok place
    else if name = ".." then .ok place.dropLast
    else if isUsableName name then .ok (place ++ [name])
    else .error .unusable

/-- The place from which a path is walked. -/
def start (t : Tree) (path : String) : Place :=
  if path.startsWith "/" then [] else t.here

/-- The place that a path leads to, whether or not it holds anything. -/
def walk (t : Tree) (path : String) : Except Fault Place :=
  if path = "" then .error .absent
  else if isUsablePath path then (namesOf path).foldlM t.step (t.start path)
  else .error .unusable

/-- The content of the file at a path. -/
def read? (t : Tree) (path : String) : Option (List UInt8) :=
  match t.walk path with
  | .error _ => none
  | .ok place =>
    match t.get? place with
    | some (.file content) => some content
    | _ => none

/-- A tree with a file at a path, if the path leads there and no directory is in the way. -/
def write? (t : Tree) (path : String) (content : List UInt8) : Option Tree :=
  match t.walk path with
  | .error _ => none
  | .ok place => if t.get? place = some .directory then none else some (t.put place (.file content))

/-- Makes the directories that names lead to from a place, and says whether all are there. -/
def ensure (t : Tree) (place : Place) : List String → Tree × Bool
  | [] => (t, true)
  | name :: rest =>
    match t.step place name with
    | .error _ => (t, false)
    | .ok next =>
      match t.get? next with
      | some .directory => t.ensure next rest
      | some (.file _) => (t, false)
      | none => (t.put next .directory).ensure next rest

/-- Makes the directories that a path leads through and to, and says whether all are there. -/
def ensureDirectory (t : Tree) (path : String) : Tree × Bool :=
  if path = "" then (t, true)
  else if isUsablePath path then t.ensure (t.start path) (namesOf path)
  else (t, false)

/-- A tree with the file at one path moved to another, in place of a file that is there. -/
def move? (t : Tree) (source target : String) : Option Tree :=
  match t.walk source, t.walk target with
  | .ok a, .ok b =>
    match t.get? a with
    | some (.file content) =>
      if t.get? b = some .directory then none else some ((t.erase a).put b (.file content))
    | _ => none
  | _, _ => none

/-- Removes the file at a path. -/
def remove (t : Tree) (path : String) : Tree × Removal :=
  match t.walk path with
  | .error .absent => (t, .absent)
  | .error _ => (t, .failed)
  | .ok place =>
    match t.get? place with
    | some (.file _) => (t.erase place, .removed)
    | some .directory => (t, .failed)
    | none => (t, .absent)

/-- What is below the working directory: the path of each file with its content, and of each
directory with a slash at its end. -/
def listing (t : Tree) : List (String × Option (List UInt8)) :=
  t.entries.filterMap fun e =>
    if t.here.isPrefixOf e.1 && e.1 ≠ t.here then
      let path := String.intercalate "/" (e.1.drop t.here.length)
      match e.2 with
      | .file content => some (path, some content)
      | .directory => some (path ++ "/", none)
    else none

end Tree

end LinkSieve.Files
