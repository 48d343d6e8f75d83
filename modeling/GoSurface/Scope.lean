/-
# Resolving names

Within a package every name that is declared at package level, in whatever file, stands for its
declaration.  Type parameters, and the names that a method's receiver gives to the type arguments
of its base type, hide package-level names for the length of one declaration.

* `Package.scope`: what each package-level name stands for, the last declaration first;
* `Package.resolve`: the package with every reference and every declared name bound.
-/
import GoSurface.Syntax.Package

namespace GoSurface

/-! ## The package scope -/

/-- Package-level names with what they stand for, the latest declaration first. -/
abbrev Scope := List (String × Binding)

/-- The binding of a declared constant or variable; only constants have an ordinal. -/
def ValueSpec.binding (s : ValueSpec) (name : String) : Binding :=
  ⟨s.kind.declKind, name, match s.kind with
    | .const => s.ordinal
    | .var => none⟩

/-- The names that a declaration adds to the package scope.  Methods belong to their receiver's
type, and the blank name is never added. -/
def Decl.declares : Decl → Scope
  | .func f => match f.recv with
    | none => [(f.name.name, ⟨.function, f.name.name, none⟩)]
    | some _ => []
  | .type t => [(t.name.name, ⟨.type, t.name.name, none⟩)]
  | .value v => (v.names.filter (·.name ≠ "_")).map fun x => (x.name, v.binding x.name)

/-- What the names of a package stand for. -/
def Package.scope (p : Package) : Scope :=
  (p.decls.flatMap Decl.declares).reverse

/-! ## Hidden names -/

/-- The names that a type-parameter list declares. -/
def Fields.declaredNames (fs : Fields) : List String :=
  fs.flatMap fun f => f.names.map (·.name)

/-- The type without pointers and parentheses around it. -/
def Expr.stripPointers : Expr → Expr
  | .pointer e => e.stripPointers
  | .paren e => e.stripPointers
  | e => e

/-- The name of a tree that is a bare identifier. -/
def Expr.identName? : Expr → Option String
  | .ident x => some x.name
  | _ => none

/-- The names that a receiver's type gives to its type arguments. -/
def Expr.receiverParams (e : Expr) : List String :=
  match e.stripPointers with
  | .index _ args => args.filterMap Expr.identName?
  | _ => []

/-- The package-level names that a function hides in its own declaration. -/
def FuncDecl.hidden (f : FuncDecl) : List String :=
  Fields.declaredNames f.sig.typeParams ++
    match f.recv with
    | some recv => recv.flatMap (·.type.receiverParams)
    | none => []

/-! ## Binding -/

/-- Binds a reference, unless its name is hidden or not declared in the package. -/
def Scope.bind (scope : Scope) (hidden : List String) (x : Ident) : Ident :=
  if x.name ∈ hidden then x
  else match scope.lookup x.name with
    | some b => { x with binding := some b }
    | none => x

/-- A function with its name and its references bound. -/
def FuncDecl.resolve (scope : Scope) (f : FuncDecl) : FuncDecl :=
  let bind := scope.bind f.hidden
  { f with
    name := { f.name with binding := some ⟨.function, f.name.name, none⟩ }
    recv := f.recv.map (Fields.mapRefs bind)
    sig := f.sig.mapRefs bind }

/-- A type declaration with its name and its references bound. -/
def TypeSpec.resolve (scope : Scope) (t : TypeSpec) : TypeSpec :=
  let bind := scope.bind (Fields.declaredNames t.typeParams)
  { t with
    name := { t.name with binding := some ⟨.type, t.name.name, none⟩ }
    typeParams := Fields.mapRefs bind t.typeParams
    type := t.type.mapRefs bind }

/-- Constants or variables with their names and their references bound. -/
def ValueSpec.resolve (scope : Scope) (v : ValueSpec) : ValueSpec :=
  let bind := scope.bind []
  { v with
    names := v.names.map fun x => { x with binding := some (v.binding x.name) }
    type := v.type.map (Expr.mapRefs bind)
    values := v.values.map (Expr.mapRefs bind) }

/-- A declaration with its names and references bound. -/
def Decl.resolve (scope : Scope) : Decl → Decl
  | .func f => .func (f.resolve scope)
  | .type t => .type (t.resolve scope)
  | .value v => .value (v.resolve scope)

/-- A package with every declared name bound to its declaration and every reference to what it
stands for. -/
def Package.resolve (p : Package) : Package :=
  { p with files := p.files.map fun f => { f with decls := f.decls.map (Decl.resolve p.scope) } }

end GoSurface
