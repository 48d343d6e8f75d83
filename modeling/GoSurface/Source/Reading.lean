/-
# Readings

Types and expressions share much of their spelling: `*T` is a pointer type or a dereference,
`a[b]` an instantiated type or an indexed value, `f(x)` a conversion or a call.  A phrase is
therefore read both ways at once, until its surroundings decide.  Where two readings remain, the
heavier one wins: type arguments speak for a type, a plain name speaks against one.

* `Reading`: a tree with its weight;
* `Phrase`: what a stretch of source may mean;
* `Phrase.select`, `Phrase.apply`, `Phrase.call`, … build phrases from their parts.
-/
import GoSurface.Syntax.Expr

namespace GoSurface.Source

/-! ## Readings -/

/-- A type and the type arguments that are given to it as a whole. -/
structure Instance where
  type : Expr
  args : List Expr
  weight : Int

/-- A meaning of a stretch of source, and how strongly its form speaks for it. -/
structure Reading where
  expr : Expr
  weight : Int
  /-- For a type that ends with type arguments: the type without them, and the arguments. -/
  instance? : Option Instance

/-- The weight of several parts together. -/
def totalWeight (weights : List Int) : Int :=
  weights.foldr (· + ·) 0

namespace Reading

/-- A tree and its weight. -/
def of (expr : Expr) (weight : Int) : Reading := ⟨expr, weight, none⟩

/-- The heaviest of some readings, the first one among equals. -/
def best (rs : List (Option Reading)) : Option Reading :=
  (rs.filterMap id).foldl (fun best r =>
    match best with
    | some b => if b.weight < r.weight then some r else some b
    | none => some r) none

/-- The weight of several readings together. -/
def total (rs : List Reading) : Int :=
  totalWeight (rs.map (·.weight))

def exprs (rs : List Reading) : List Expr :=
  rs.map (·.expr)

/-- A value made from a value. -/
def map (f : Expr → Expr) (r : Reading) : Reading :=
  .of (f r.expr) r.weight

/-- A type in parentheses: the arguments at its end stay inside. -/
def closed (r : Reading) : Reading :=
  .of r.expr r.weight

/-- A type that ends with the given type; the parts in front of it have a weight of their own. -/
def wrap (f : Expr → Expr) (weight : Int) (r : Reading) : Reading where
  expr := f r.expr
  weight := weight + r.weight
  instance? := r.instance?.map fun i => ⟨f i.type, i.args, weight + i.weight⟩

/-- A name that stands for a type; names are more often values, so it weighs against. -/
def typeName (x : String) : Reading :=
  .of (.ident ⟨x, none⟩) (-1)

/-- Whether a tree has several terms. -/
def isUnion : Expr → Bool
  | .union _ => true
  | _ => false

/-- A generic type with its arguments, which speak for it; in front of them its own weight is the
given one. -/
def generic (base : Reading) (weight : Int) (args : List Reading) : Reading where
  expr := .index base.expr (exprs args)
  weight := 3 + weight + total args
  instance? :=
    if args.any (isUnion ·.expr) then none
    else some ⟨base.expr, exprs args, base.weight + total args⟩

/-- A type that ends with type arguments, as a value. -/
def instantiated (r : Reading) : Option Reading :=
  r.instance?.map fun i => .of (.index i.type i.args) (i.weight - 1)

/-- The terms of a constraint as one reading: a single term stands for itself. -/
def union : List Reading → Reading
  | [r] => r
  | rs => .of (.union (exprs rs)) (total rs)

end Reading

/-! ## Phrases -/

/-- What a stretch of source may mean. -/
structure Phrase where
  /-- As a value that is not just an instantiated type. -/
  value : Option Reading := none
  /-- As the terms of a constraint; a type is a single term. -/
  terms : List Reading := []
  /-- As the name of a type, to which type arguments may be given. -/
  base : Option Reading := none
  /-- As the type of a composite literal. -/
  literal : Option Reading := none
  /-- As a function with type arguments, in front of a call. -/
  applied : Option Reading := none
  /-- A single name. -/
  isName : Bool := false
  /-- A built-in function whose first argument is a type. -/
  takesType : Bool := false

namespace Phrase

/-- As a type. -/
def type? (p : Phrase) : Option Reading :=
  match p.terms with
  | [t] => some t
  | _ => none

def value? (p : Phrase) : Option Reading :=
  Reading.best [p.value, p.type?.bind Reading.instantiated]

/-- Whether the phrase means anything without a call after it. -/
def isMeaningful (p : Phrase) : Bool :=
  p.value.isSome || !p.terms.isEmpty || p.literal.isSome

/-- The phrase as an operand behind a star, which turns a type into a pointer before anything else
is done with it. -/
def behindStar (p : Phrase) : Phrase :=
  { p with terms := [] }

/-- A value and nothing else. -/
def ofValue (e : Expr) (weight : Int) : Phrase :=
  { value := some (.of e weight) }

/-- A type and nothing else. -/
def ofType (r : Reading) : Phrase :=
  { terms := [r] }

/-- A type that may start a composite literal. -/
def ofLiteralType (r : Reading) : Phrase :=
  { terms := [r], literal := some r }

/-- A name: of a value or of a type. -/
def ofName (x : String) : Phrase :=
  { value := some (.of (.ident ⟨x, none⟩) 0)
    terms := [Reading.typeName x]
    base := some (Reading.typeName x)
    literal := some (.of (.ident ⟨x, none⟩) 0)
    isName := true }

/-- A type name with a package in front of it, or a selected member. -/
def select (p : Phrase) (x : String) : Phrase :=
  let value := p.value?.map (·.map (.selector · ⟨x, none⟩))
  if p.isName then { value, terms := value.toList, base := value, literal := value }
  else { value }

/-- Parentheses: kept around a value, dropped around a type. -/
def paren (p : Phrase) : Phrase :=
  { value := p.value?.map (·.map .paren)
    terms := (p.type?.map Reading.closed).toList }

/-- A star: a dereferenced value or a pointer type. -/
def star (p : Phrase) : Phrase :=
  { value := p.value.map (·.map (.unary "*"))
    terms := (p.type?.map (·.wrap .pointer 0)).toList }

/-- Any other operator in front of a value. -/
def unary (op : String) (p : Phrase) : Phrase :=
  { value := p.value?.map (·.map (.unary op)) }

/-- An operator between two values; a bar may also stand between the terms of a constraint. -/
def binary (op : String) (l r : Phrase) : Phrase :=
  let value := do
    let a ← l.value?
    let b ← r.value?
    return .of (.binary op a.expr b.expr) (a.weight + b.weight)
  let terms :=
    if op = "|" && !l.terms.isEmpty then
      match r.type? with
      | some t => l.terms ++ [t]
      | none => []
    else []
  { value, terms }

/-- The arguments as type arguments, if each can be one. -/
def typeArgs? (args : List Phrase) : Option (List Reading) :=
  args.mapM fun a => if a.terms.isEmpty then none else some (Reading.union a.terms)

/-- Brackets after a phrase: an index, or type arguments.  An index is a single value without a
comma after it. -/
def apply (p : Phrase) (args : List Phrase) (comma : Bool) : Phrase :=
  let indexed := do
    let v ← p.value?
    match args, comma with
    | [a], false =>
      let i ← a.value?
      return .of (.index v.expr [i.expr]) (v.weight + i.weight)
    | _, _ => none
  let instantiated := do
    let t ← p.type?
    let ts ← args.mapM type?
    if p.base.isSome then none
    else return .of (.index t.expr (Reading.exprs ts)) (-1 + t.weight + Reading.total ts)
  let generic := do
    let b ← p.base
    let ts ← typeArgs? args
    return Reading.generic b 0 ts
  let applied := do
    let v ← p.value?
    let ts ← typeArgs? args
    return .of (.index v.expr (Reading.exprs ts)) (2 + v.weight + Reading.total ts)
  { value := Reading.best [indexed, instantiated]
    terms := generic.toList
    literal := generic
    applied }

/-- Arguments in parentheses after a phrase: a call, or a conversion if there is one argument. -/
def call (p : Phrase) (args : List Reading) : Phrase :=
  let called := do
    let f ← Reading.best [p.value?, p.applied]
    return .of (.call f.expr (Reading.exprs args)) (f.weight + Reading.total args)
  let converted := do
    let t ← p.type?
    match Reading.exprs args with
    | [.ellipsis _] => none
    | [a] => return .of (.call t.expr [a]) (-1 + t.weight + Reading.total args)
    | _ => none
  { value := Reading.best [called, converted] }

end Phrase

end GoSurface.Source
