/-
# Reading expressions

Operators by precedence climbing; operands with what may follow them: selections, indices, type
arguments, calls, assertions and composite literals.

* `phraseBody`: a type or an expression;
* `valueOf`, `values`: expressions where nothing else will do.
-/
import GoSurface.Source.Types

namespace GoSurface.Source

open Reader

/-! ## Operators -/

/-- The operators between values with their precedence, longer spellings first. -/
def binaryOps : List (String × Nat) :=
  [("&^", 5), ("<<", 5), (">>", 5), ("==", 3), ("!=", 3), ("<=", 3), (">=", 3), ("&&", 2),
    ("||", 1), ("*", 5), ("/", 5), ("%", 5), ("&", 5), ("+", 4), ("-", 4), ("|", 4), ("^", 4),
    ("<", 3), (">", 3)]

/-- The precedence of an operand of an operator in front. -/
def unaryPrec : Nat := 6

/-- The tokens that end the left side of a simple statement and start with an operator. -/
def statementOps : List String :=
  ["&^=", "<<=", ">>=", "*=", "/=", "%=", "&=", "+=", "-=", "|=", "^=", "++", "--", "<-"]

/-- The longest operator at the front of a text. -/
def binaryOp (ctx : Context) : Reader (String × Nat) := fun cs =>
  match binaryOps.find? fun (op, _) => op.toList.isPrefixOf cs with
  | none => none
  | some (op, prec) =>
    if ctx.assigns && statementOps.any (fun s => op.length < s.length && s.toList.isPrefixOf cs) then
      none
    else some ((op, prec), cs.drop op.length)

/-! ## Values -/

/-- A phrase as a value. -/
def valueOf (g : Grammar) (ctx : Context) : Reader Reading := do
  ofOption (← g.phrase ctx 0).value?

/-- Values separated by commas. -/
def values (g : Grammar) (ctx : Context) : Reader (List Reading) :=
  let gap := if ctx.lineEnds then Gap.line else Gap.any
  sepBy (valueOf g ctx) (symbol gap ",")

/-! ## Composite literals -/

/-- The elements of a composite literal between braces, given the reader of one element. -/
def elements (element : Reader Reading) : Reader (List Reading) := do
  symbol .any "\x7b"
  let items ← optionally (sepBy element (symbol .any ","))
  let _ ← optionally (symbol .any ",")
  symbol .any "\x7d"
  return items.getD []

/-- A key or a value of a composite literal, nested at most this deep without a type. -/
def elementUpTo (g : Grammar) : Nat → Reader Reading
  | 0 => failure
  | n + 1 => do
    let part : Reader Reading := do
      if ← symbolAhead .any "\x7b" then
        let es ← elements (elementUpTo g n)
        return .of (.composite none (Reading.exprs es)) (Reading.total es)
      else valueOf g .inside
    let key ← part
    match ← optionally (do symbol .any ":"; part) with
    | some value => return .of (.keyValue key.expr value.expr) (key.weight + value.weight)
    | none => return key

/-- The elements of a composite literal between braces. -/
def literalBody (g : Grammar) : Reader (List Reading) := do
  let depth := (← rest).length
  elements (elementUpTo g depth)

/-! ## What follows an operand -/

/-- An argument of a call; three dots spread it. -/
def argument (g : Grammar) : Reader Reading := do
  let a ← valueOf g .inside
  match ← optionally (symbol .any "...") with
  | some _ => return a.map .ellipsis
  | none => return a

/-- The arguments of a call after the opening parenthesis. -/
def arguments (g : Grammar) : Reader (List Reading) := do
  if ← symbolAhead .any ")" then
    symbol .any ")"
    return []
  else return (← commaList (argument g) ")").1

/-- The arguments of a built-in function that takes a type first. -/
def typeArguments (g : Grammar) : Reader (List Reading) := do
  if ← symbolAhead .any ")" then
    symbol .any ")"
    return []
  else
    let t ← g.type .any
    let others ← many (do symbol .any ","; valueOf g .inside)
    let _ ← optionally (symbol .any ",")
    symbol .any ")"
    return t :: others

/-- A call or a conversion. -/
def callStep (g : Grammar) (p : Phrase) : Reader Phrase := do
  symbol .any "("
  let args ← if p.takesType then typeArguments g else arguments g
  return p.call args

/-- A selected member. -/
def selectStep (p : Phrase) : Reader Phrase := do
  symbol .any "."
  return p.select (← name .any [])

/-- A type assertion. -/
def assertStep (g : Grammar) (ctx : Context) (p : Phrase) : Reader Phrase := do
  let v ← ofOption p.value?
  symbol .any "."
  symbol .any "("
  if ctx.guards then require ((← wordAhead .any) ≠ some "type")
  let t ← g.type .any
  symbol .any ")"
  return .ofValue (.typeAssert v.expr t.expr) (v.weight + t.weight)

/-- A slice of a value, after its lower bound; a capacity needs an upper bound in front of it. -/
def sliceStep (g : Grammar) (p : Phrase) (low : Option Reading) : Reader Phrase := do
  let v ← ofOption p.value?
  symbol .any ":"
  let high ← optionally (valueOf g .inside)
  let capacity ← optionally (do
    let _ ← ofOption high
    symbol .any ":"
    valueOf g .inside)
  symbol .any "]"
  let bounds := [low, high, capacity]
  let weight := v.weight + Reading.total (bounds.filterMap id)
  return .ofValue (.sliceExpr v.expr (bounds.map (·.map Reading.expr))) weight

/-- A slice, an index or type arguments. -/
def bracketStep (g : Grammar) (p : Phrase) : Reader Phrase := do
  symbol .any "["
  match ← optionally (g.phrase .inside 0) with
  | none => sliceStep g p none
  | some first =>
    if ← symbolAhead .any ":" then
      sliceStep g p (some (← ofOption first.value?))
    else
      let others ← many (do symbol .any ","; g.phrase .inside 0)
      let comma ← optionally (symbol .any ",")
      symbol .any "]"
      return p.apply (first :: others) comma.isSome

/-- Whether a statement with a body ends here, so that braces in front were its body. -/
def bodyEnds : Reader Bool := do
  match ← peek .line with
  | none => return true
  | some c =>
    let w ← wordAhead .line
    return c ∈ ['\n', ';', '\x7d', '\x00'] || w.any (· ∈ ["else", "case", "default"])

/-- A composite literal.  In the head of a statement a brace after a name opens the body, and so
does one after any other value if the statement ends with the closing brace. -/
def literalStep (g : Grammar) (ctx : Context) (p : Phrase) : Reader Phrase := do
  let t ← ofOption p.literal
  require !(ctx.inHead && p.isName)
  let es ← literalBody g
  if ctx.inHead && p.value?.isSome then require !(← bodyEnds)
  return .ofValue (.composite (some t.expr) (Reading.exprs es)) (t.weight + Reading.total es)

/-- One more thing after an operand. -/
def postfixStep (g : Grammar) (ctx : Context) (p : Phrase) : Reader Phrase := do
  blanks (ctx.gapAfter p)
  let p := if ctx.starred then p.behindStar else p
  let q ← match ← peek .line with
    | some '.' => selectStep p <|> assertStep g ctx p
    | some '[' => bracketStep g p
    | some '(' => callStep g p
    | some '\x7b' => literalStep g ctx p
    | _ => failure
  require (!ctx.starred || q.isMeaningful || (q.applied.isSome && (← symbolAhead .any "(")))
  return q

/-! ## Operands -/

/-- An array type whose length is counted from the elements of its literal. -/
def countedArray (g : Grammar) : Reader Phrase := do
  symbol .any "["
  symbol .any "..."
  symbol .any "]"
  let elem ← g.type .any
  return { literal := some (elem.map (.array (.ident ⟨"...", none⟩))) }

/-- A function literal, or a function type if no body follows. -/
def funcOperand (g : Grammar) : Reader Phrase := do
  keyword .any "func"
  let (ps, weight) ← params g .any
  let rs ← results g .any
  let t := funcReading ps weight rs
  if ← symbolAhead .any "\x7b" then
    g.block
    return .ofValue (.funcLit ⟨[], ps, rs.fields⟩) t.weight
  else return .ofType t

/-- A word as an operand: a constant, a built-in function, a type's keyword or a name. -/
def wordOperand (g : Grammar) : Reader Phrase := do
  match ← wordAhead .any with
  | none => failure
  | some w =>
    if w = "func" then funcOperand g
    else if w ∈ typeWords then
      let t ← typeBody g .any
      if w = "struct" || w = "map" then return .ofLiteralType t else return .ofType t
    else
      let _ ← word .any
      if w ∈ valueWords then return .ofValue (.ident ⟨w, none⟩) 0
      else if w ∈ allocatorWords then
        return { Phrase.ofValue (.ident ⟨w, none⟩) 0 with takesType := true }
      else return .ofName w

/-- An operand. -/
def operand (g : Grammar) : Reader Phrase := do
  match ← peek .any with
  | some '(' =>
    symbol .any "("
    let p ← g.phrase .inside 0
    symbol .any ")"
    return p.paren
  | some '[' => countedArray g <|> (do return .ofLiteralType (← typeBody g .any))
  | some '~' => return .ofType (← typeBody g .any)
  | some c =>
    if Text.startsWord c then wordOperand g
    else return .ofValue (.lit (← literal .any)) 0
  | none => failure

/-- An operand with everything that follows it. -/
def primary (g : Grammar) (ctx : Context) : Reader Phrase := do
  iterate (postfixStep g ctx) (← operand g)

/-! ## Phrases -/

/-- An operand with the operators in front of it. -/
def unaryPhrase (g : Grammar) (ctx : Context) : Reader Phrase := do
  match ← peek .any with
  | some '*' =>
    symbol .any "*"
    let p := (← g.phrase { ctx.operand with starred := true } unaryPrec).star
    if p.value.isSome then return p else iterate (postfixStep g ctx) p
  | some '<' =>
    (do iterate (postfixStep g ctx) (.ofType (← recvChan g .any))) <|>
    (do
      symbol .any "<-"
      return (← g.phrase ctx.operand unaryPrec).unary "<-")
  | some c =>
    if c ∈ ['+', '-', '!', '^', '&'] then
      let op := String.ofList [c]
      symbol .any op
      return (← g.phrase ctx.operand unaryPrec).unary op
    else primary g ctx
  | none => failure

/-- One more operator and its right side. -/
def binaryStep (g : Grammar) (ctx : Context) (least : Nat) (l : Phrase) : Reader Phrase := do
  blanks (ctx.gapAfter l)
  let (op, prec) ← binaryOp ctx
  require (least ≤ prec)
  let p := l.binary op (← g.phrase ctx.operand (prec + 1))
  require (p.value?.isSome || !p.terms.isEmpty)
  return p

/-- A type or expression whose operators bind at least this tightly. -/
def phraseBody (g : Grammar) (ctx : Context) (least : Nat) : Reader Phrase := do
  iterate (binaryStep g ctx least) (← unaryPhrase g ctx)

end GoSurface.Source
