/-
# Reading types

Types, parameter lists, struct fields and interface elements.

* `typeBody`: any type;
* `params`, `results`, `typeParams`: the parts of function and type declarations.
-/
import GoSurface.Source.Grammar

namespace GoSurface.Source

open Reader

/-! ## Lists -/

/-- Items separated by commas, with an optional comma at the end, up to a closing bracket. -/
def commaList {α : Type} (item : Reader α) (closing : String) : Reader (List α × Bool) := do
  let items ← sepBy item (symbol .any ",")
  let comma ← optionally (symbol .any ",")
  symbol .any closing
  return (items, comma.isSome)

/-- Items that each end a line or stand before a semicolon, up to a closing brace. -/
def lineItems {α : Type} (item : Reader α) : Reader (List α) := do
  symbol .any "\x7b"
  let items ← optionally (do
    let items ← sepBy item terminator
    let _ ← optionally terminator
    return items)
  symbol .any "\x7d"
  return items.getD []

/-! ## Names of types and their arguments -/

/-- The terms of a constraint. -/
def typeElem (g : Grammar) (gap : Gap) : Reader Reading := do
  let terms ← sepBy (g.type gap) (symbol gap "|")
  return Reading.union terms

/-- Type arguments in brackets. -/
def typeArgs (g : Grammar) (gap : Gap) : Reader (List Reading) := do
  symbol gap "["
  let (args, _) ← commaList (typeElem g .any) "]"
  return args

/-- A name, with or without a package in front of it; the weight is that of the name alone. -/
def typeName (gap : Gap) : Reader Reading := do
  let x ← name .any typeWords
  let member ← optionally (do symbol gap "."; name .any [])
  match member with
  | some y => return .of (.selector (.ident ⟨x, none⟩) ⟨y, none⟩) 0
  | none => return .typeName x

/-- A named type, with type arguments if there are any. -/
def namedType (g : Grammar) (gap : Gap) : Reader Reading := do
  let base ← typeName gap
  match ← optionally (typeArgs g gap) with
  | some args => return .generic base 0 args
  | none => return base

/-! ## Parameters -/

def bareField (type : Expr) : Field := ⟨[], type, none⟩

/-- Parameters read so far: complete ones with their weight, and the single names after them, which
share the type that follows or are types themselves. -/
structure ParamList where
  fields : Fields
  weight : Int
  pending : List String

namespace ParamList

def empty : ParamList := ⟨[], 0, []⟩

def push (ps : ParamList) (x : String) : ParamList :=
  { ps with pending := ps.pending ++ [x] }

/-- Single names as types. -/
def ofNames (ps : ParamList) (xs : List String) : ParamList :=
  let types := xs.map Reading.typeName
  ⟨ps.fields ++ types.map (bareField ·.expr), ps.weight + Reading.total types, []⟩

/-- The single names at the end as types; a word that starts a type is none. -/
def close? (ps : ParamList) : Option ParamList :=
  if ps.pending.any (· ∈ typeWords) then none else some (ps.ofNames ps.pending)

/-- A parameter without a name, or with names of its own. -/
def add (ps : ParamList) (xs : List String) (type : Reading) : ParamList :=
  { ps with
    fields := ps.fields ++ [⟨xs.map (⟨·, none⟩), type.expr, none⟩]
    weight := ps.weight + type.weight }

/-- How many names can share a type. -/
def maxShared : Nat := 9

/-- A name that shares its type with the single names in front of it, as far as they can share it;
the others are types. -/
def share (ps : ParamList) (x : String) (type : Reading) : ParamList :=
  let names := ps.pending ++ [x]
  let alone := names.length - maxShared
  (ps.ofNames (names.take alone)).add (names.drop alone) type

end ParamList

/-- Whether a parameter ends here. -/
def paramEnds : Reader Unit := lookahead (symbol .any "," <|> symbol .any ")")

/-- The name of a parameter.  After a single name only another name can share its type, so that no
word is reserved there. -/
def paramName (ps : ParamList) : Reader String :=
  name .any (if ps.pending.isEmpty then typeWords else [])

/-- A variadic parameter. -/
def variadicParam (g : Grammar) (ps : ParamList) : Reader ParamList := do
  let ps ← ofOption ps.close?
  let x ← optionally (name .any typeWords)
  symbol .any "..."
  let t ← g.type .any
  return ps.add x.toList (t.wrap .ellipsis 0)

/-- A name alone. -/
def loneParam (ps : ParamList) : Reader ParamList := do
  let x ← paramName ps
  paramEnds
  return ps.push x

/-- A type alone. -/
def typedParam (g : Grammar) (ps : ParamList) : Reader (Int × ParamList) := do
  let ps ← ofOption ps.close?
  let t ← g.type .any
  paramEnds
  let ps := ps.add [] t
  return (ps.weight, ps)

/-- A name and its type. -/
def namedParam (g : Grammar) (ps : ParamList) : Reader (Int × ParamList) := do
  let x ← paramName ps
  let t ← g.type .any
  paramEnds
  let ps := ps.share x t
  return (ps.weight, ps)

/-- One more entry of a parameter list. -/
def param (g : Grammar) (ps : ParamList) : Reader ParamList :=
  variadicParam g ps <|> loneParam ps <|>
    if ps.pending.isEmpty then (·.2) <$> (typedParam g ps <|> namedParam g ps)
    else heavier (namedParam g ps) (typedParam g ps)

/-- A parameter list in parentheses, with its weight. -/
def params (g : Grammar) (gap : Gap) : Reader (Fields × Int) := do
  symbol gap "("
  let entries ← optionally (do
    iterate (fun ps => do symbol .any ","; param g ps) (← param g .empty))
  let _ ← optionally (symbol .any ",")
  symbol .any ")"
  let ps ← ofOption (entries.getD .empty).close?
  return (ps.fields, ps.weight)

/-- Results: a parameter list, a single type, or nothing. -/
inductive Results where
  | list (fields : Fields) (weight : Int)
  | single (type : Reading)

/-- The results as fields. -/
def Results.fields : Results → Fields
  | .list fs _ => fs
  | .single t => [bareField t.expr]

/-- Results, if there are any; a bracket after the parameters can only start a result. -/
def results (g : Grammar) (gap : Gap) : Reader Results := do
  match ← peek gap with
  | some '(' =>
    let (fs, weight) ← params g gap
    return .list fs weight
  | some '\n' => return .list [] 0
  | some '[' => return .single (← g.type gap)
  | _ =>
    match ← optionally (g.type gap) with
    | some t => return .single t
    | none => return .list [] 0

/-- A type with parameters and results. -/
def funcReading (ps : Fields) (weight : Int) : Results → Reading
  | .list rs w => .of (.func ⟨[], ps, rs⟩) (weight + w)
  | .single t => t.wrap (fun r => .func ⟨[], ps, [bareField r]⟩) weight

/-! ## Type parameters -/

/-- Names with their constraint; the place says which words cannot be the first name. -/
def typeParam (g : Grammar) (reserved : List String) : Reader (Field × Int) := do
  let first ← name .any reserved
  let others ← many (do symbol .any ","; name .any [])
  let constraint ← typeElem g .any
  return (⟨(first :: others).map (⟨·, none⟩), constraint.expr, none⟩, constraint.weight)

/-- Type parameters in brackets, with their weight. -/
def typeParams (g : Grammar) (reserved : List String) : Reader (Fields × Int) := do
  symbol .any "["
  let first ← typeParam g reserved
  let others ← many (do symbol .any ","; typeParam g [])
  let _ ← optionally (symbol .any ",")
  symbol .any "]"
  let ps := first :: others
  return (ps.map (·.1), totalWeight (ps.map (·.2)))

/-! ## Structs and interfaces -/

/-- The end of a struct field. -/
def fieldEnds : Reader Unit := lookahead (terminator <|> symbol .any "\x7d")

/-- The tag after a field, if there is one. -/
def fieldTag : Reader (Option Lit) := optionally (stringLit .line)

/-- An embedded type. -/
def embeddedField (g : Grammar) : Reader (Field × Int) := do
  let star ← optionally (symbol .any "*")
  let x ← name .any []
  let member ← optionally (do symbol .line "."; name .any [])
  let base : Expr := match member with
    | some y => .selector (.ident ⟨x, none⟩) ⟨y, none⟩
    | none => .ident ⟨x, none⟩
  let type : Reading := match ← optionally (typeArgs g .line) with
    | some args => .generic (.of base 0) 0 args
    | none => .of base 0
  let tag ← fieldTag
  fieldEnds
  return (⟨[], if star.isSome then .pointer type.expr else type.expr, tag⟩, type.weight)

/-- Names that share a type. -/
def namedField (g : Grammar) : Reader (Field × Int) := do
  let names ← sepBy (name .any []) (symbol .any ",")
  let type ← g.type .line
  let tag ← fieldTag
  return (⟨names.map (⟨·, none⟩), type.expr, tag⟩, type.weight)

/-- The fields of a list with their weights, and the weight of the whole. -/
def weighed (fs : List (Field × Int)) : Fields × Int :=
  (fs.map (·.1), totalWeight (fs.map (·.2)))

/-- A struct type after its keyword. -/
def structBody (g : Grammar) : Reader Reading := do
  let (fs, weight) := weighed (← lineItems (embeddedField g <|> namedField g))
  return .of (.struct fs) weight

/-- A method of an interface. -/
def method (g : Grammar) : Reader (Field × Int) := do
  let x ← name .any typeWords
  let (ps, weight) ← params g .line
  let t := funcReading ps weight (← results g .line)
  return (⟨[⟨x, none⟩], t.expr, none⟩, t.weight)

/-- The terms of a constraint as an element of an interface. -/
def embeddedElem (g : Grammar) : Reader (Field × Int) := do
  let t ← typeElem g .line
  return (bareField t.expr, t.weight)

/-- An interface type after its keyword. -/
def interfaceBody (g : Grammar) : Reader Reading := do
  let (fs, weight) := weighed (← lineItems (method g <|> embeddedElem g))
  return .of (.interface fs) weight

/-! ## Types -/

/-- A map type after its keyword. -/
def mapBody (g : Grammar) (gap : Gap) : Reader Reading := do
  symbol .any "["
  let key ← g.type .any
  symbol .any "]"
  let value ← g.type gap
  return value.wrap (.map key.expr) key.weight

/-- A channel of the elements that a type gives. -/
def Reading.chan (dir : ChanDir) (elem : Reading) : Reading :=
  elem.wrap (.chan dir) 0

/-- A channel type that starts with an arrow. -/
def recvChan (g : Grammar) (gap : Gap) : Reader Reading := do
  symbol .any "<-"
  keyword .any "chan"
  return (← g.type gap).chan .recv

/-- A channel type after its keyword.  An arrow belongs to a following `chan` if it can. -/
def chanBody (g : Grammar) (gap : Gap) : Reader Reading :=
  (do return (← g.type gap).chan .both) <|>
  (do symbol .any "<-"; return (← g.type gap).chan .send)

/-- A slice or array type after its opening bracket. -/
def arrayBody (g : Grammar) (gap : Gap) : Reader Reading := do
  if ← symbolAhead .any "]" then
    symbol .any "]"
    return (← g.type gap).wrap .slice 0
  else
    let length ← ofOption (← g.phrase .inside 0).value?
    symbol .any "]"
    return (← g.type gap).wrap (.array length.expr) length.weight

/-- A type that a keyword announces. -/
def keywordType (g : Grammar) (gap : Gap) : Reader Reading := do
  match ← word .any with
  | "struct" => structBody g
  | "interface" => interfaceBody g
  | "map" => mapBody g gap
  | "chan" => chanBody g gap
  | "func" =>
    let (ps, weight) ← params g .any
    return funcReading ps weight (← results g gap)
  | _ => failure

/-- A type behind a tilde; type arguments that it leaves over are given to the whole. -/
def tildeType (g : Grammar) (gap : Gap) : Reader Reading := do
  symbol .any "~"
  let t := (← g.type gap).wrap .tilde 0
  match ← optionally (typeArgs g gap) with
  | some args => return .generic t t.weight args
  | none => return t

/-- A type; the gap is the one in front of what may follow it. -/
def typeBody (g : Grammar) (gap : Gap) : Reader Reading := do
  match ← peek .any with
  | some '*' =>
    symbol .any "*"
    return (← g.type gap).wrap .pointer 0
  | some '(' =>
    symbol .any "("
    let t ← g.type .any
    symbol .any ")"
    return t.closed
  | some '[' =>
    symbol .any "["
    arrayBody g gap
  | some '~' => tildeType g gap
  | some '<' => recvChan g gap
  | _ => keywordType g gap <|> namedType g gap

end GoSurface.Source
