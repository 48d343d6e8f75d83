/-
# Declarations, files and packages

A package is what one revision offers: files, each a list of package-level declarations.

* `FuncDecl`, `TypeSpec`, `ValueSpec`: the three kinds of declaration;
* `Package.funcs`, `Package.types`, `Package.values`: the declarations of one kind, in file order;
* `ValueSpec.numberGroup`: numbers a group of constants that uses `iota`;
* `ValueSpec.repeatGroup`: fills in what an abbreviated constant repeats.
-/
import GoSurface.Syntax.References

namespace GoSurface

/-! ## Positions -/

/-- A place in a source file; lines and columns count from one, columns in bytes. -/
structure Position where
  file : String
  line : Nat
  column : Nat
deriving DecidableEq

/-- The usual `file:line:column` spelling. -/
def Position.text (p : Position) : String :=
  p.file ++ ":" ++ toString p.line ++ ":" ++ toString p.column

/-! ## Declarations -/

/-- A function, or a method if it has a receiver. -/
structure FuncDecl where
  recv : Option Fields
  name : Ident
  sig : Signature
  position : Position

/-- The base type of a method: that of its first receiver. -/
def FuncDecl.receiverBase (f : FuncDecl) : Option String :=
  match f.recv with
  | some (r :: _) => r.type.baseTypeName
  | _ => none

/-- A type declaration; `isAlias` marks the spelling `type A = B`. -/
structure TypeSpec where
  name : Ident
  typeParams : Fields
  isAlias : Bool
  type : Expr
  position : Position

/-- Constants and variables share their declarations' shape. -/
inductive ValueKind where
  | const
  | var
deriving DecidableEq

/-- The keyword that introduces declarations of this kind. -/
def ValueKind.keyword : ValueKind → String
  | .const => "const"
  | .var => "var"

/-- The kind of declaration that a name of this kind stands for. -/
def ValueKind.declKind : ValueKind → DeclKind
  | .const => .constant
  | .var => .variable

/-- A declaration of constants or variables. -/
structure ValueSpec where
  kind : ValueKind
  names : List Ident
  type : Option Expr
  values : List Expr
  /-- Set when type and values repeat those of the declaration before it in the group. -/
  implicit : Bool
  /-- The position in a group of constants numbered by `iota`. -/
  ordinal : Option Nat
  position : Position

/-- A package-level declaration. -/
inductive Decl where
  | func (d : FuncDecl)
  | type (d : TypeSpec)
  | value (d : ValueSpec)

/-- A source file: its name, its package clause and its declarations. -/
structure File where
  name : String
  package : String
  decls : List Decl

/-- A package: a name and the files that make it up. -/
structure Package where
  name : String
  files : List File

/-! ## The declarations of a package -/

/-- The function in a declaration. -/
def Decl.func? : Decl → Option FuncDecl
  | .func d => some d
  | _ => none

/-- The type in a declaration. -/
def Decl.type? : Decl → Option TypeSpec
  | .type d => some d
  | _ => none

/-- The constants or variables in a declaration. -/
def Decl.value? : Decl → Option ValueSpec
  | .value d => some d
  | _ => none

/-- All declarations, file after file. -/
def Package.decls (p : Package) : List Decl :=
  p.files.flatMap File.decls

/-- The functions and methods. -/
def Package.funcs (p : Package) : List FuncDecl :=
  p.decls.filterMap Decl.func?

/-- The type declarations. -/
def Package.types (p : Package) : List TypeSpec :=
  p.decls.filterMap Decl.type?

/-- The declarations of constants and variables. -/
def Package.values (p : Package) : List ValueSpec :=
  p.decls.filterMap Decl.value?

/-- The first declaration of a type of that name. -/
def Package.typeSpec? (p : Package) (name : String) : Option TypeSpec :=
  p.types.find? (·.name.name = name)

/-! ## Groups of constants -/

/-- Whether a declaration is written with names alone. -/
def ValueSpec.isBare (s : ValueSpec) : Bool :=
  s.values.isEmpty && s.type.isNone

/-- A bare declaration after another one takes over its type and values. -/
def ValueSpec.repeating (s previous : ValueSpec) : ValueSpec :=
  if s.isBare then { s with type := previous.type, values := previous.values, implicit := true }
  else s

/-- Fills in what bare declarations repeat, from the one before the list on. -/
def ValueSpec.repeatAfter (previous : ValueSpec) : List ValueSpec → List ValueSpec
  | [] => []
  | s :: rest => s.repeating previous :: ValueSpec.repeatAfter (s.repeating previous) rest

/-- Fills in what the bare declarations of a group repeat; the first one repeats nothing. -/
def ValueSpec.repeatGroup : List ValueSpec → List ValueSpec
  | [] => []
  | s :: rest => s :: ValueSpec.repeatAfter s rest

/-- Whether some value of the group mentions `iota`. -/
def ValueSpec.usesIota (group : List ValueSpec) : Bool :=
  group.any fun s => s.values.any (·.mentions "iota")

/-- Numbers the members of a group that uses `iota`, and clears the ordinals of any other, so
that the order of plain constants does not matter. -/
def ValueSpec.numberGroup (group : List ValueSpec) : List ValueSpec :=
  group.mapIdx fun i s => { s with ordinal := if ValueSpec.usesIota group then some i else none }

/-- A group of constants as written, with repetitions filled in and members numbered. -/
def ValueSpec.constGroup (group : List ValueSpec) : List ValueSpec :=
  ValueSpec.numberGroup (ValueSpec.repeatGroup group)

end GoSurface
