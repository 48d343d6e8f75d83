/-
# Reading files

A Go file as its package clause and its package-level declarations.

* `File.parse`: a file from its name and text;
* `Package.parse`: a package of one file, resolved;
* `ParseError`: why a text is no Go file.
-/
import GoSurface.Scope
import GoSurface.Source.Statements

namespace GoSurface.Source

open Reader

/-! ## Places -/

/-- The place after some text: a line feed starts a new line, columns count bytes. -/
def advance : Nat × Nat → List Char → Nat × Nat
  | place, [] => place
  | (line, column), c :: cs =>
    if c = '\n' then advance (line + 1, 1) cs else advance (line, column + c.utf8Size) cs

/-- The position of a suffix of a text. -/
def positionOf (file : String) (text suffix : List Char) : Position :=
  let (line, column) := advance (1, 1) (text.take (text.length - suffix.length))
  ⟨file, line, column⟩

/-- A reader's result with the position of its first token. -/
def positioned {α : Type} (place : List Char → Position) (r : Reader α) : Reader (Position × α) := do
  blanks .any
  let start ← rest
  return (place start, ← r)

/-! ## Declarations -/

/-- Declarations between parentheses, each with a terminator, or a single one. -/
def specs {α : Type} (spec : Reader α) : Reader (List α) := do
  if ← symbolAhead .any "(" then
    symbol .any "("
    let found ← many (do
      let s ← spec
      terminator
      return s)
    symbol .any ")"
    return found
  else return [← spec]

/-- The names of a constant declaration; the commas between them count as names. -/
def constNames : Reader (List String) := do
  let first ← name .any []
  let others ← many (do
    symbol .line ","
    return [",", ← name .any []])
  return first :: others.flatten

/-- The values after an equals sign. -/
def assigned (g : Grammar) (gap : Gap) : Reader (List Expr) := do
  symbol gap "="
  return Reading.exprs (← values g .ofDecl)

/-- A declaration of constants: names alone, or names with values and perhaps a type. -/
def constSpec (g : Grammar) (place : List Char → Position) : Reader ValueSpec := do
  let (position, names) ← positioned place constNames
  let withValues : Reader (Option Expr × List Expr) := do
    let type ← optionally (do
      require !(← symbolAhead .line "=")
      require (← lineGoesOn)
      g.type .any)
    return (type.map (·.expr), ← assigned g (if type.isSome then .any else .line))
  let (type, values) := (← optionally withValues).getD (none, [])
  return ⟨.const, names.map (⟨·, none⟩), type, values, false, none, position⟩

/-- A declaration of variables: a type, values, or both. -/
def varSpec (g : Grammar) (place : List Char → Position) : Reader ValueSpec := do
  let (position, names) ← positioned place (sepBy (name .any []) (symbol .any ","))
  let (type, values) ←
    (do return (none, ← assigned g .any)) <|>
    (do
      let type ← g.type .line
      let values ← optionally (assigned g .line)
      return (some type.expr, values.getD []))
  return ⟨.var, names.map (⟨·, none⟩), type, values, false, none, position⟩

/-- A type declaration as an alias. -/
def aliasSpec (g : Grammar) : Reader (Fields × Bool × Expr) := do
  symbol .any "="
  return ([], true, (← g.type .line).expr)

/-- A type declaration with type parameters, and its weight. -/
def genericSpec (g : Grammar) : Reader (Int × Fields × Bool × Expr) := do
  let (ps, weight) ← typeParams g operandWords
  let type ← g.type .line
  return (weight + type.weight, ps, false, type.expr)

/-- Whether an arrow follows the first name in brackets; it can only start the constraint of a
type parameter. -/
def arrowAhead : Reader Bool := do
  let found ← optionally (lookahead do
    symbol .any "["
    let _ ← name .any operandWords
    symbol .any "<-")
  return found.isSome

/-- A type declaration without type parameters, and its weight. -/
def plainSpec (g : Grammar) : Reader (Int × Fields × Bool × Expr) := do
  require !(← arrowAhead)
  let type ← g.type .line
  return (type.weight, [], false, type.expr)

/-- A type declaration.  Brackets after the name hold an array's length or type parameters; if
both can be read, the heavier reading wins. -/
def typeSpec (g : Grammar) (place : List Char → Position) : Reader TypeSpec := do
  let (position, x) ← positioned place (name .any [])
  let (params, isAlias, type) ← aliasSpec g <|> heavier (genericSpec g) (plainSpec g)
  return ⟨⟨x, none⟩, params, isAlias, type, position⟩

/-- The declarations that one of the words `const`, `var` and `type` introduces. -/
def declarations (g : Grammar) (place : List Char → Position) (w : String) : Reader (List Decl) := do
  match w with
  | "const" =>
    return (ValueSpec.constGroup (← specs (constSpec g place))).map Decl.value
  | "var" => return (← specs (varSpec g place)).map Decl.value
  | "type" => return (← specs (typeSpec g place)).map Decl.type
  | _ => failure

/-! ## Functions -/

/-- The body of a function, if it has one on the same line. -/
def funcBody (g : Grammar) : Reader Unit := do
  if ← symbolAhead .line "\x7b" then g.block

/-- A function after its keyword. -/
def plainFunc (g : Grammar) (position : Position) : Reader FuncDecl := do
  let x ← name .any []
  let ts ← if ← symbolAhead .any "[" then typeParams g [] else pure ([], 0)
  let (ps, _) ← params g .any
  let rs ← results g .line
  funcBody g
  return ⟨none, ⟨x, none⟩, ⟨ts.1, ps, rs.fields⟩, position⟩

/-- A method after its keyword. -/
def methodFunc (g : Grammar) (position : Position) : Reader FuncDecl := do
  let (recv, _) ← params g .any
  let x ← name .any typeWords
  let (ps, _) ← params g .any
  let rs ← results g .line
  funcBody g
  return ⟨some recv, ⟨x, none⟩, ⟨[], ps, rs.fields⟩, position⟩

/-- Whether a method starts here: a receiver, a name and a parenthesis. -/
def methodAhead (g : Grammar) : Reader Bool := do
  let found ← optionally (lookahead do
    keyword .any "func"
    let _ ← params g .any
    let _ ← name .any typeWords
    symbol .any "(")
  return found.isSome

/-- A function or method. -/
def funcDecl (g : Grammar) (place : List Char → Position) : Reader FuncDecl := do
  let (position, _) ← positioned place (keyword .any "func")
  plainFunc g position <|> methodFunc g position

/-! ## Imports -/

/-- An imported path, perhaps under a name. -/
def importSpec : Reader Unit := do
  let _ ← optionally (symbol .any "." <|> (do let _ ← name .any []))
  let _ ← stringLit .any

/-- Imports after their keyword. -/
def imports : Reader Unit := do
  if ← symbolAhead .any "(" then
    symbol .any "("
    let _ ← optionally (do
      let _ ← sepBy importSpec terminator
      let _ ← optionally terminator)
    symbol .any ")"
  else importSpec

/-! ## The knot -/

/-- The grammar with this many levels of nesting. -/
def Grammar.ofDepth : Nat → Grammar
  | 0 => .dead
  | n + 1 =>
    { type := fun gap cs => typeBody (ofDepth n) gap cs
      phrase := fun ctx least cs => phraseBody (ofDepth n) ctx least cs
      statement := fun inCase cs =>
        statementBody (ofDepth n)
          (fun w => do let _ ← declarations (ofDepth n) (fun _ => ⟨"", 0, 0⟩) w) inCase cs
      block := fun cs => blockBody (ofDepth n) cs }

/-! ## Files -/

/-- What stands at the top level of a file. -/
inductive Item where
  /-- A package clause. -/
  | package (name : String)
  /-- Declarations. -/
  | decls (ds : List Decl)
  /-- Imports and statements. -/
  | other

/-- A package clause, an import or a function: these may end the file without a terminator. -/
def openItem (g : Grammar) (place : List Char → Position) : Reader Item := do
  match ← wordAhead .any with
  | some "package" =>
    let _ ← word .any
    return .package (← name .any [])
  | some "import" =>
    let _ ← word .any
    imports
    return .other
  | some "func" => return .decls [.func (← funcDecl g place)]
  | _ => failure

/-- A declaration of constants, variables or types, or a statement. -/
def closedItem (g : Grammar) (place : List Char → Position) : Reader Item := do
  match ← wordAhead .any with
  | some w =>
    if w ∈ ["const", "var", "type"] then
      let _ ← word .any
      return .decls (← declarations g place w)
    else
      require (w ≠ "package" && w ≠ "import")
      require !(← methodAhead g)
      g.statement false
      return .other
  | none =>
    g.statement false
    return .other

/-- The end of the text. -/
def endOfText : Reader Unit := do
  blanks .any
  require (← rest).isEmpty

/-- An item and its terminator. -/
def item (g : Grammar) (place : List Char → Position) : Reader Item := do
  (do
    let i ← openItem g place
    terminator <|> endOfText
    return i) <|>
  (do
    let i ← closedItem g place
    terminator
    return i)

/-- All items of a file. -/
def items (g : Grammar) (place : List Char → Position) : Reader (List Item) := do
  let found ← many (item g place)
  endOfText
  return found

/-! ## Texts -/

/-- The text as it is read: it ends with a line end unless it is empty. -/
def terminated (text : List Char) : List Char :=
  match text.getLast? with
  | none => text
  | some c => if c = '\n' then text else text ++ ['\n']

/-- The text after a byte order mark. -/
def withoutMark : List Char → List Char
  | '\ufeff' :: cs => cs
  | cs => cs

end GoSurface.Source

namespace GoSurface

open Source

/-- Why a text is no Go file. -/
inductive ParseError where
  /-- The grammar itself cannot be used. -/
  | noGrammar (detail : String)
  /-- Reading was given up. -/
  | incomplete (file : String)
  /-- The grammar does not accept the text; line and column of the offence may be known. -/
  | badSyntax (file : String) (place : Option (Nat × Nat))
  /-- There is no package clause. -/
  | noPackageClause (file : String)
deriving DecidableEq

/-- The message for people. -/
def ParseError.message : ParseError → String
  | .noGrammar detail => "Failed to set Go language: " ++ detail
  | .incomplete file => "Failed to parse Go source: " ++ file
  | .badSyntax file none => "Syntax error in " ++ file
  | .badSyntax file (some (line, column)) =>
    "Syntax error in " ++ file ++ " at " ++ toString line ++ ":" ++ toString column
  | .noPackageClause file => "Missing package clause in " ++ file

/-- The package named by the items; the last clause counts. -/
def Source.Item.packageName? (items : List Item) : Option String :=
  (items.filterMap fun
    | .package x => some x
    | _ => none).getLast?

/-- The declarations among the items. -/
def Source.Item.declsOf (items : List Item) : List Decl :=
  items.flatMap fun
    | .decls ds => ds
    | _ => []

/-- A Go file from its name and its text, with nothing resolved. -/
def File.parse (file : String) (source : String) : Except ParseError File :=
  let text := terminated source.toList
  let start := withoutMark text
  match (items (Grammar.ofDepth (start.length + 1)) (positionOf file text)) start with
  | none => .error (.badSyntax file none)
  | some (found, _) =>
    match Item.packageName? found with
    | none => .error (.noPackageClause file)
    | some package => .ok ⟨file, package, Item.declsOf found⟩

/-- A package of one file, under the name in its clause. -/
def Package.parse (file : String) (source : String) : Except ParseError Package := do
  let f ← File.parse file source
  return (Package.mk f.package [f]).resolve

end GoSurface
