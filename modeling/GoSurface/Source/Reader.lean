/-
# Readers

A reader takes what it recognises off the front of a text and returns the rest, or fails.  All
repetition is bounded by the length of the text, so every reader is total.

* `Reader`: the type of readers, with sequence and choice;
* `Reader.heavier`: choice by weight;
* `Reader.iterate`, `Reader.sepBy`: repetition;
* `Reader.captured`: the text that a reader takes.
-/

namespace GoSurface.Source

/-- A reader of characters: a result and the rest of the text, or failure. -/
abbrev Reader (α : Type) := StateT (List Char) Option α

namespace Reader

variable {α β : Type}

/-! ## Single characters -/

def rest : Reader (List Char) := fun cs => some (cs, cs)

/-- Succeeds when a condition holds. -/
def require (condition : Bool) : Reader Unit :=
  if condition then pure () else failure

/-- Takes exactly these characters. -/
def exactly : List Char → Reader Unit
  | [] => pure ()
  | c :: cs => fun input =>
    match input with
    | d :: ds => if c = d then exactly cs ds else none
    | [] => none

/-- Takes one character of a class. -/
def charOf (p : Char → Bool) : Reader Char := fun input =>
  match input with
  | c :: cs => if p c then some (c, cs) else none
  | [] => none

/-- Whether the text goes on with these characters. -/
def ahead (s : String) : Reader Bool := fun cs =>
  some (s.toList.isPrefixOf cs, cs)

/-! ## Choice and repetition -/

/-- The value of an optional result, or failure. -/
def ofOption : Option α → Reader α
  | some a => pure a
  | none => failure

/-- The result of a reader, or nothing if it fails. -/
def optionally (r : Reader α) : Reader (Option α) := fun cs =>
  match r cs with
  | some (a, rest) => some (some a, rest)
  | none => some (none, cs)

/-- The result of a reader whose text is left in place. -/
def lookahead (r : Reader α) : Reader α := fun cs =>
  match r cs with
  | some (a, _) => some (a, cs)
  | none => none

/-- The heavier of two readings of the same text, the first one among equals. -/
def heavier (a b : Reader (Int × α)) : Reader α := fun cs =>
  match a cs, b cs with
  | some ((v, x), r), some ((w, y), s) => if v < w then some (y, s) else some (x, r)
  | some ((_, x), r), none => some (x, r)
  | none, some ((_, y), s) => some (y, s)
  | none, none => none

/-- Applies a step at most `n` times, as long as it succeeds. -/
def iterateUpTo (step : α → Reader α) : Nat → α → Reader α
  | 0, a => pure a
  | n + 1, a => fun cs =>
    match step a cs with
    | some (b, rest) => iterateUpTo step n b rest
    | none => some (a, cs)

/-- Applies a step as long as it succeeds.  A step takes at least one character, so the length of
the text bounds their number. -/
def iterate (step : α → Reader α) (a : α) : Reader α := fun cs =>
  iterateUpTo step (cs.length + 1) a cs

/-- As many results as there are, in order. -/
def many (r : Reader α) : Reader (List α) := do
  let found ← iterate (fun (acc : List α) => do return (← r) :: acc) []
  return found.reverse

/-- One or more results with separators between them. -/
def sepBy (r : Reader α) (separator : Reader β) : Reader (List α) := do
  let first ← r
  let others ← many (do let _ ← separator; r)
  return first :: others

/-- The text that a reader takes. -/
def captured (r : Reader Unit) : Reader String := fun cs =>
  match r cs with
  | some (_, rest) => some (String.ofList (cs.take (cs.length - rest.length)), rest)
  | none => none

end Reader

end GoSurface.Source
