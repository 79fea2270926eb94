import LinkSieve.Files.Tree

/-!
# Surroundings of a run

What a run can ask of the system it runs on, whatever that system is: files, the standard input and
output, and the home directory. An enclosed system is a file tree with the text of both streams;
asking it for something is a function of its state.
-/

namespace LinkSieve.Run

open Files (Removal Tree)

/-- What a run can ask of the system it runs on. An answer of `none` or `false` is a failure. -/
structure Surroundings (m : Type → Type) where
  home : m (Option String)
  readInput : m (Option (List UInt8))
  print : String → m Bool
  readFile : String → m (Option (List UInt8))
  writeFile : String → List UInt8 → m Bool
  ensureDirectory : String → m Bool
  moveFile : String → String → m Bool
  removeFile : String → m Removal

/-- A system by itself. -/
structure Enclosed where
  tree : Tree
  home : Option String := none
  input : List UInt8 := []
  printed : String := ""

namespace Enclosed

/-- Replaces the tree if there is a new one. -/
def replaceTree (tree? : Tree → Option Tree) : StateM Enclosed Bool := fun s =>
  match tree? s.tree with
  | some tree => (true, { s with tree })
  | none => (false, s)

/-- An enclosed system as surroundings. -/
def surroundings : Surroundings (StateM Enclosed) where
  home := fun s => (s.home, s)
  readInput := fun s => (some s.input, { s with input := [] })
  print text := fun s => (true, { s with printed := s.printed ++ text })
  readFile path := fun s => (s.tree.read? path, s)
  writeFile path content := replaceTree (·.write? path content)
  ensureDirectory path := fun s =>
    let (tree, made) := s.tree.ensureDirectory path
    (made, { s with tree })
  moveFile source target := replaceTree (·.move? source target)
  removeFile path := fun s =>
    let (tree, removal) := s.tree.remove path
    (removal, { s with tree })

end Enclosed

end LinkSieve.Run
