/-
# Printing the surface

Declarations as they are quoted in reports: one line for functions and values, struct and
interface types with one element a line, everything else inline.  Bodies are never printed.

* `Expr.text`, `Signature.text`, `Fields.paramsText`: the inline forms;
* `FuncDecl.text`, `TypeSpec.text`, `ValueSpec.text`: declarations.
-/
import GoSurface.Syntax.Package

namespace GoSurface

/-! ## Pieces -/

/-- The keyword in front of a channel's element type. -/
def ChanDir.keyword : ChanDir → String
  | .both => "chan "
  | .send => "chan<- "
  | .recv => "<-chan "

/-- Texts in a row with a separator between them. -/
def joinTexts (separator : String) (texts : List String) : String :=
  separator.intercalate texts

/-- Names in a row. -/
def namesText (names : List Ident) : String :=
  joinTexts ", " (names.map (·.name))

/-- Elements between braces on one line. -/
def inlineBody (elems : List String) : String :=
  if elems.isEmpty then "\x7b\x7d" else "\x7b " ++ joinTexts "; " elems ++ " \x7d"

/-- Elements between braces, one a line. -/
def blockBody (elems : List String) : String :=
  if elems.isEmpty then "\x7b\x7d"
  else "\x7b\n" ++ String.join (elems.map fun e => "\t" ++ e ++ "\n") ++ "\x7d"

/-- A parameter list from the texts of its fields. -/
def paramsBody (fields : List String) : String :=
  "(" ++ joinTexts ", " fields ++ ")"

/-- A type-parameter list from the texts of its fields; nothing if there are none. -/
def typeParamsBody (fields : List String) : String :=
  if fields.isEmpty then "" else "[" ++ joinTexts ", " fields ++ "]"

/-- The bounds between a slice expression's brackets: a missing third bound is not written. -/
def boundsBody : List String → String
  | [low, high, ""] => joinTexts ":" [low, high]
  | bounds => joinTexts ":" bounds

/-- A field's names and type, with a blank between them if there are names. -/
def fieldBody (names type : String) : String :=
  if names.isEmpty then type else names ++ " " ++ type

/-- A tag after a field. -/
def tagText : Option Lit → String
  | none => ""
  | some l => " " ++ l.value

/-! ## Trees -/

mutual

/-- A type or expression on one line. -/
def Expr.text : Expr → String
  | .ident x => x.name
  | .lit l => l.value
  | .ellipsis e => "..." ++ e.text
  | .pointer e => "*" ++ e.text
  | .slice e => "[]" ++ e.text
  | .paren e => "(" ++ e.text ++ ")"
  | .tilde e => "~" ++ e.text
  | .array n e => "[" ++ n.text ++ "]" ++ e.text
  | .map k v => "map[" ++ k.text ++ "]" ++ v.text
  | .chan d e => d.keyword ++ e.text
  | .func s => "func" ++ s.text
  | .struct fs => "struct" ++ inlineBody (Fields.texts fs)
  | .interface fs => "interface" ++ inlineBody (Fields.elemTexts fs)
  | .selector e x => e.text ++ "." ++ x.name
  | .index e es => e.text ++ "[" ++ joinTexts ", " (Expr.texts es) ++ "]"
  | .union es => joinTexts " | " (Expr.texts es)
  | .call e es => e.text ++ "(" ++ joinTexts ", " (Expr.texts es) ++ ")"
  | .binary op l r => l.text ++ " " ++ op ++ " " ++ r.text
  | .unary op e => op ++ e.text
  | .keyValue k v => k.text ++ ": " ++ v.text
  | .composite t es => Expr.textOption t ++ "\x7b" ++ joinTexts ", " (Expr.texts es) ++ "\x7d"
  | .funcLit s => "func" ++ s.text ++ " \x7b…\x7d"
  | .sliceExpr e bs => e.text ++ "[" ++ boundsBody (Expr.textOptions bs) ++ "]"
  | .typeAssert e t => e.text ++ ".(" ++ t.text ++ ")"
  | .unsupported k => "<" ++ k ++ ">"

/-- The texts of trees in a row. -/
def Expr.texts : List Expr → List String
  | [] => []
  | e :: es => e.text :: Expr.texts es

/-- The text of a tree that may be absent. -/
def Expr.textOption : Option Expr → String
  | none => ""
  | some e => e.text

/-- The texts of trees that may be absent. -/
def Expr.textOptions : List (Option Expr) → List String
  | [] => []
  | e :: es => Expr.textOption e :: Expr.textOptions es

/-- A field: names, type and tag. -/
def Field.text : Field → String
  | ⟨xs, t, tag⟩ => fieldBody (namesText xs) t.text ++ tagText tag

/-- An element of an interface: a method is written as its name and signature. -/
def Field.elemText : Field → String
  | ⟨xs, .func s, tag⟩ =>
    if (namesText xs).isEmpty then "func" ++ s.text ++ tagText tag
    else namesText xs ++ s.text ++ tagText tag
  | ⟨xs, t, tag⟩ => fieldBody (namesText xs) t.text ++ tagText tag

/-- The texts of fields. -/
def Fields.texts : List Field → List String
  | [] => []
  | f :: fs => f.text :: Fields.texts fs

/-- The texts of interface elements. -/
def Fields.elemTexts : List Field → List String
  | [] => []
  | f :: fs => f.elemText :: Fields.elemTexts fs

/-- Results: a single nameless one is written bare, anything else as a parameter list. -/
def Fields.resultsText : List Field → String
  | [] => ""
  | [⟨[], t, _⟩] => " " ++ t.text
  | f :: fs => " " ++ paramsBody (f.text :: Fields.texts fs)

/-- What follows `func` or a function's name. -/
def Signature.text : Signature → String
  | ⟨ts, ps, rs⟩ =>
    typeParamsBody (Fields.texts ts) ++ paramsBody (Fields.texts ps) ++ Fields.resultsText rs

end

/-- A parameter list between parentheses. -/
def Fields.paramsText (fs : Fields) : String :=
  paramsBody (Fields.texts fs)

/-- A type-parameter list between brackets, or nothing. -/
def Fields.typeParamsText (fs : Fields) : String :=
  typeParamsBody (Fields.texts fs)

/-! ## Declarations -/

/-- The line that declares a function, without its body. -/
def FuncDecl.text (f : FuncDecl) : String :=
  let recv := match f.recv with
    | some fs => Fields.paramsText fs ++ " "
    | none => ""
  "func " ++ recv ++ f.name.name ++ f.sig.text

/-- The right-hand side of a type declaration, with bodies spread over lines. -/
def Expr.declText : Expr → String
  | .struct fs => "struct " ++ blockBody (Fields.texts fs)
  | .interface fs => "interface " ++ blockBody (Fields.elemTexts fs)
  | e => e.text

/-- A type declaration. -/
def TypeSpec.text (s : TypeSpec) : String :=
  "type " ++ s.name.name ++ Fields.typeParamsText s.typeParams ++
    (if s.isAlias then " = " else " ") ++ s.type.declText

/-- A declaration of constants or variables; what it repeats is not printed. -/
def ValueSpec.text (s : ValueSpec) : String :=
  let names := s.kind.keyword ++ " " ++ namesText s.names
  if s.implicit then names
  else
    let type := match s.type with
      | some t => " " ++ t.text
      | none => ""
    let values :=
      if s.values.isEmpty then "" else " = " ++ joinTexts ", " (Expr.texts s.values)
    names ++ type ++ values

end GoSurface
