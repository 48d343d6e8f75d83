/-
# Paths

A path is a text in which slashes divide names.  A path that starts with a slash starts at the
root, any other one at the working directory.

* `Path.join`: a path below another one;
* `Path.components`: the names of a path, the empty ones included.
-/

namespace GoSurface

/-- The pieces of a list between the places where a separator stands; there is at least one. -/
def splitOnSep {α : Type} [DecidableEq α] (sep : α) : List α → List (List α)
  | [] => [[]]
  | c :: cs =>
    if c = sep then [] :: splitOnSep sep cs
    else
      match splitOnSep sep cs with
      | [] => [[c]]
      | p :: ps => (c :: p) :: ps

/-- Splitting always leaves a piece. -/
theorem splitOnSep_ne_nil {α : Type} [DecidableEq α] (sep : α) (cs : List α) :
    splitOnSep sep cs ≠ [] := by
  cases cs with
  | nil => simp [splitOnSep]
  | cons c cs =>
    rw [splitOnSep]
    split
    · simp
    · split <;> simp

namespace Path

/-- Whether a path starts at the root. -/
def isAbsolute (p : String) : Bool := p.toList.head? = some '/'

/-- Whether a path ends with a slash. -/
def endsOpen (p : String) : Bool := p.toList.getLast? = some '/'

/-- A path below another one: an absolute one replaces it, and there is one slash between them. -/
def join (base part : String) : String :=
  if isAbsolute part || base.isEmpty then part
  else if endsOpen base then base ++ part
  else base ++ "/" ++ part

/-- The names of a path. -/
def components (p : String) : List String :=
  (splitOnSep '/' p.toList).map String.ofList

end Path

end GoSurface
