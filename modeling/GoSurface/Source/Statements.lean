/-
# Reading statements

Bodies of functions are no part of a package's surface, but a file is only accepted if they are
well formed.  These readers recognise statements and keep nothing of them.

* `statementBody`: a statement;
* `blockBody`: statements between braces.

Declarations inside bodies are read by the declaration reader that is passed in.
-/
import GoSurface.Source.Phrases

namespace GoSurface.Source

open Reader

/-! ## Simple statements -/

/-- The operators that assign. -/
def assignOps : List String :=
  ["&^=", "<<=", ">>=", "*=", "/=", "%=", "&=", "+=", "-=", "|=", "^=", ":=", "="]

/-- One of several symbols. -/
def anySymbol (gap : Gap) : List String → Reader Unit
  | [] => failure
  | s :: ss => symbol gap s <|> anySymbol gap ss

/-- The gap after a value in a place. -/
def Context.gap (ctx : Context) : Gap :=
  if ctx.lineEnds then .line else .any

/-- The rest of an assignment, after its left side. -/
def assignment (g : Grammar) (ctx : Context) (gap : Gap) : Reader Unit := do
  anySymbol gap assignOps
  let _ ← values g ctx

/-- The rest of an assignment, after its first target and a comma; it cannot end with the line. -/
def furtherTargets (g : Grammar) (ctx : Context) : Reader Unit := do
  let _ ← values g { ctx with assigns := true, lineEnds := false }
  assignment g ctx .any

/-- An expression, a send, an increment or an assignment. -/
def simpleStatement (g : Grammar) (ctx : Context) : Reader Unit := do
  let _ ← valueOf g { ctx with assigns := true }
  let send : Reader Unit := do
    symbol ctx.gap "<-"
    let _ ← valueOf g ctx
  (do symbol ctx.gap ","; furtherTargets g ctx) <|> assignment g ctx ctx.gap <|> send <|>
    anySymbol ctx.gap ["++", "--"] <|> pure ()

/-- The place of a statement in a body. -/
def Context.ofStatement : Context := { lineEnds := true }

/-- The place of a statement's head. -/
def Context.ofHead : Context := { inHead := true }

/-- The place of a switch's head. -/
def Context.ofSwitch : Context := { inHead := true, guards := true }

/-- A simple statement and a semicolon in front of the rest of a head. -/
def initializer (g : Grammar) (ctx : Context) : Reader Unit := do
  simpleStatement g ctx
  symbol .any ";"

/-! ## Lists of statements -/

/-- The words that announce a statement. -/
def statementWords : List String :=
  ["const", "type", "var", "return", "go", "defer", "if", "for", "switch", "select", "fallthrough",
    "break", "continue", "goto"]

/-- Whether a list of statements ends here. -/
def listEnds (inCase : Bool) : Reader Bool := do
  if ← symbolAhead .any "\x7d" then return true
  else
    let w ← wordAhead .any
    return inCase && (w = some "case" || w = some "default")

/-- A label in front of nothing, at the end of a list. -/
def danglingLabel (inCase : Bool) : Reader Unit := do
  let _ ← name .any (operandWords ++ statementWords)
  symbol .line ":"
  require (← listEnds inCase)

/-- A statement, or a label at the end of a list; the flag says whether a terminator follows. -/
def listItem (g : Grammar) (inCase : Bool) : Reader Bool := do
  require !(← listEnds inCase)
  (do danglingLabel inCase; return false) <|>
  (do
    g.statement inCase
    return (← optionally terminator).isSome)

/-- Statements with terminators between them. -/
def statementList (g : Grammar) (inCase : Bool) : Reader Unit := do
  let _ ← iterate (fun more => do require more; listItem g inCase) true

/-- Statements between braces. -/
def blockBody (g : Grammar) : Reader Unit := do
  symbol .any "\x7b"
  statementList g false
  symbol .any "\x7d"

/-! ## Statements with bodies -/

/-- A conditional, after its keyword; `else` stands on the line of the closing brace. -/
def ifUpTo (g : Grammar) : Nat → Reader Unit
  | 0 => failure
  | n + 1 => do
    let _ ← optionally (initializer g .ofHead)
    let _ ← valueOf g .ofHead
    g.block
    let _ ← optionally (do
      keyword .line "else"
      (do keyword .any "if"; ifUpTo g n) <|> g.block)

/-- The head of a loop over a range. -/
def rangeHead (g : Grammar) : Reader Unit := do
  let _ ← optionally (do
    let _ ← values g { Context.ofHead with assigns := true }
    anySymbol .any [":=", "="])
  keyword .any "range"
  let _ ← valueOf g .ofHead

/-- The head of a loop with a counter. -/
def counterHead (g : Grammar) : Reader Unit := do
  let _ ← optionally (simpleStatement g .ofHead)
  symbol .any ";"
  let _ ← optionally (valueOf g .ofHead)
  symbol .any ";"
  let _ ← optionally (simpleStatement g .ofHead)

/-- A loop, after its keyword. -/
def forBody (g : Grammar) : Reader Unit := do
  if (← wordAhead .any) = some "range" then
    rangeHead g
    g.block
  else
    (do rangeHead g; g.block) <|> (do counterHead g; g.block) <|>
      (do let _ ← valueOf g .ofHead; g.block) <|> g.block

/-- A case's statements, after its colon. -/
def caseBody (g : Grammar) : Reader Unit := do
  symbol .any ":"
  statementList g true

/-- The cases of a switch or select between braces. -/
def cases (g : Grammar) (head : Reader Unit) : Reader Unit := do
  symbol .any "\x7b"
  let _ ← many (do
    (do keyword .any "case"; head) <|> keyword .any "default"
    caseBody g)
  symbol .any "\x7d"

/-- A switch on a type, after its keyword. -/
def typeSwitch (g : Grammar) : Reader Unit := do
  let _ ← optionally (initializer g .ofSwitch)
  let _ ← optionally (do
    let _ ← values g { Context.ofSwitch with assigns := true }
    symbol .any ":=")
  let _ ← ofOption (← primary g .ofSwitch).value?
  symbol .any "."
  symbol .any "("
  keyword .any "type"
  symbol .any ")"
  cases g (do let _ ← sepBy (g.type .any) (symbol .any ","))

/-- A switch on a value, after its keyword. -/
def valueSwitch (g : Grammar) : Reader Unit := do
  let _ ← optionally (initializer g .ofSwitch)
  let _ ← optionally (valueOf g .ofSwitch)
  cases g (do let _ ← values g .inside)

/-- A send or a receive in a case of a select. -/
def communication (g : Grammar) : Reader Unit := do
  let left ← values g { Context.inside with assigns := true }
  (do
    require (left.length = 1)
    symbol .any "<-"
    let _ ← valueOf g .inside) <|>
  (do
    anySymbol .any [":=", "="]
    let _ ← valueOf g .inside) <|>
  require (left.length = 1)

/-! ## Statements -/

/-- Whether the line goes on. -/
def lineGoesOn : Reader Bool := do
  match ← peek .line with
  | some c => return c ≠ '\n' && c ≠ ';' && c ≠ '\x7d' && c ≠ '\x00'
  | none => return false

/-- A label and the statement it marks. -/
def labeled (g : Grammar) (inCase : Bool) : Reader Unit := do
  let _ ← name .any operandWords
  symbol .line ":"
  require !(← ahead "=")
  g.statement inCase

/-- A statement that its first word announces. -/
def wordStatement (g : Grammar) (declaration : String → Reader Unit) (w : String) : Reader Unit := do
  let _ ← word .any
  match w with
  | "const" | "type" | "var" => declaration w
  | "return" =>
    if ← lineGoesOn then
      let _ ← optionally (values g .ofStatement)
  | "go" | "defer" => let _ ← valueOf g .ofStatement
  | "if" => ifUpTo g (← rest).length
  | "for" => forBody g
  | "switch" => typeSwitch g <|> valueSwitch g
  | "select" => cases g (communication g)
  | "fallthrough" => pure ()
  | "break" | "continue" => let _ ← optionally (name .line [])
  | "goto" => let _ ← name .any []
  | _ => failure

/-- A statement. -/
def statementBody (g : Grammar) (declaration : String → Reader Unit) (inCase : Bool) :
    Reader Unit := do
  match ← peek .any with
  | some '\x7b' => g.block
  | some ';' => symbol .any ";"
  | _ =>
    match ← wordAhead .any with
    | some w =>
      if w ∈ statementWords then wordStatement g declaration w
      else labeled g inCase <|> simpleStatement g .ofStatement
    | none => simpleStatement g .ofStatement

end GoSurface.Source
