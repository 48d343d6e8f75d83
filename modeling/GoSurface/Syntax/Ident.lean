/-
# Identifiers and literals

The leaves of the syntax of a package's surface.  An identifier carries the spelling that the
source uses and, once the package has been resolved, the package-level declaration it stands for.

* `Binding`: what an identifier stands for;
* `Ident.isExported`: whether a name is visible outside its package;
* `Ident.same`: when two identifiers of two revisions denote the same thing.
-/
import GoSurface.Text.Uppercase

namespace GoSurface

/-! ## Identifiers -/

/-- The kinds of package-level declaration that a name can stand for. -/
inductive DeclKind where
  | type
  | constant
  | variable
  | function
deriving DecidableEq

/-- The declaration that an identifier stands for. -/
structure Binding where
  kind : DeclKind
  name : String
  /-- The position within a group of constants numbered by `iota`. -/
  ordinal : Option Nat := none
deriving DecidableEq

/-- A name as it is written, with its declaration where one is known. -/
structure Ident where
  name : String
  binding : Option Binding := none
deriving DecidableEq

/-- A name is exported when its first character is upper case. -/
def isExported (name : String) : Bool :=
  match name.toList with
  | [] => false
  | c :: _ => Text.isUppercase c

/-- Whether the identifier's spelling is an exported one. -/
def Ident.isExported (x : Ident) : Bool :=
  GoSurface.isExported x.name

/-- Two bindings agree on kind and name, and for constants also on the ordinal. -/
def Binding.same (a b : Binding) : Bool :=
  a.kind = b.kind && a.name = b.name && (a.kind ≠ .constant || a.ordinal = b.ordinal)

/-- Two identifiers are the same when their spellings agree and their bindings, if both are
known, agree too. -/
def Ident.same (a b : Ident) : Bool :=
  a.name = b.name &&
    match a.binding, b.binding with
    | some x, some y => x.same y
    | _, _ => true

/-! ## Literals -/

/-- The kinds of basic literal. -/
inductive LitKind where
  | int
  | float
  | imaginary
  | char
  | string
deriving DecidableEq

/-- A basic literal, kept as its source text. -/
structure Lit where
  kind : LitKind
  value : String
deriving DecidableEq

end GoSurface
