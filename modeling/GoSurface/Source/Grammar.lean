/-
# The shape of the grammar

Types, expressions and statements contain one another.  The readers of one level of nesting are
functions of the readers of the next one, collected in a `Grammar`; a file is read with as many
levels as it has characters, which no file can use up.

* `Context`: where a phrase stands;
* `Grammar`: the readers that nest;
* the words that each place reserves.
-/
import GoSurface.Source.Reading
import GoSurface.Source.Token

namespace GoSurface.Source

/-- Where a phrase stands. -/
structure Context where
  /-- A line end after a complete value ends it. -/
  lineEnds : Bool := false
  /-- In the head of a statement with a body, so that a brace after a name opens the body. -/
  inHead : Bool := false
  /-- At the start of a simple statement, where assignment operators are tokens. -/
  assigns : Bool := false
  /-- In the head of a switch, where `.(type)` is a guard. -/
  guards : Bool := false
  /-- Behind a star, which binds a type more tightly than what follows the type. -/
  starred : Bool := false

/-- Between brackets nothing of the surroundings counts. -/
def Context.inside : Context := {}

/-- The place of an operand of an operator. -/
def Context.operand (ctx : Context) : Context :=
  { ctx with guards := false, starred := false }

/-- After a declaration's equals sign. -/
def Context.ofDecl : Context := { lineEnds := true }

/-- The gap in front of what may follow a phrase: the line end counts only after a value. -/
def Context.gapAfter (ctx : Context) (p : Phrase) : Gap :=
  if ctx.lineEnds && p.value?.isSome then .line else .any

/-- The readers that nest. -/
structure Grammar where
  /-- A type; the gap is the one in front of what may follow it. -/
  type : Gap → Reader Reading
  /-- A type or expression whose operators bind at least this tightly. -/
  phrase : Context → Nat → Reader Phrase
  /-- A statement; the flag says whether it stands in a case of a switch. -/
  statement : Bool → Reader Unit
  /-- Statements between braces. -/
  block : Reader Unit

/-- The grammar without any nesting. -/
def Grammar.dead : Grammar where
  type _ := failure
  phrase _ _ := failure
  statement _ := failure
  block := failure

/-- The words that start a type. -/
def typeWords : List String := ["struct", "interface", "map", "chan", "func"]

/-- The words with a meaning of their own in expressions. -/
def valueWords : List String := ["nil", "true", "false", "iota"]

/-- The built-in functions whose first argument is a type. -/
def allocatorWords : List String := ["new", "make"]

/-- The words that start an expression and are no names there. -/
def operandWords : List String := typeWords ++ valueWords ++ allocatorWords

end GoSurface.Source
