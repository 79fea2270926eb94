/-!
# Cutting a text

Cuts at the first or at the last place where a character stands, and tests for a text within
another. Each cut leaves out the character it is made at.
-/

namespace LinkSieve.Text

variable {α : Type} [DecidableEq α]

/-- What stands before and after the first `sep`. -/
def cutFirst? (sep : α) : List α → Option (List α × List α)
  | [] => none
  | c :: rest =>
    if c = sep then some ([], rest)
    else (cutFirst? sep rest).map fun (before, after) => (c :: before, after)

/-- What stands before and after the last `sep`. -/
def cutLast? (sep : α) : List α → Option (List α × List α)
  | [] => none
  | c :: rest =>
    match cutLast? sep rest with
    | some (before, after) => some (c :: before, after)
    | none => if c = sep then some ([], rest) else none

/-- What stands before the first `sep`, and what stands after it if there is one. -/
def cutOption (sep : α) (cs : List α) : List α × Option (List α) :=
  match cutFirst? sep cs with
  | some (before, after) => (before, some after)
  | none => (cs, none)

/-- The rest of a text after a given beginning. -/
def dropPrefix? : List α → List α → Option (List α)
  | [], cs => some cs
  | _ :: _, [] => none
  | a :: as, c :: cs => if a = c then dropPrefix? as cs else none

/-- Whether a text stands somewhere within another. -/
def occursIn (part : List α) : List α → Bool
  | [] => part.isEmpty
  | c :: rest => part.isPrefixOf (c :: rest) || occursIn part rest

end LinkSieve.Text
