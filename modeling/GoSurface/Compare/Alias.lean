/-
# Following names of types

A type declaration whose right-hand side is just the name of another type of the package stands
for that type.  Names are followed until something else is reached or a name comes up again.

* `Package.follow` gives the type that a declaration stands for;
* `Expr.namedType?` is the single step.
-/
import GoSurface.Syntax.Package

namespace GoSurface

/-- What a type declaration stands for. -/
structure Resolved where
  typeParams : Fields
  type : Expr
  /-- At least one name was followed. -/
  viaName : Bool

/-- The name that a bare reference to a declared type leads to. -/
def Expr.namedType? : Expr → Option String
  | .ident ⟨_, some ⟨.type, name, _⟩⟩ => some name
  | _ => none

/-- The declaration that a right-hand side leads to, unless its name has been met before. -/
def Package.next? (p : Package) (visited : List String) (e : Expr) : Option (String × TypeSpec) :=
  match e.namedType? with
  | none => none
  | some name =>
    if name ∈ visited then none
    else match p.typeSpec? name with
      | some target => some (name, target)
      | none => none

/-- Follows at most `hops` names, none of them twice. -/
def Package.followFrom (p : Package) : Nat → List String → Resolved → Resolved
  | 0, _, r => r
  | hops + 1, visited, r =>
    match p.next? visited r.type with
    | none => r
    | some (name, target) =>
      p.followFrom hops (name :: visited) ⟨target.typeParams, target.type, true⟩

/-- What a declaration stands for.  No name is followed twice, so there are at most as many
steps as the package has type declarations. -/
def Package.follow (p : Package) (s : TypeSpec) : Resolved :=
  p.followFrom p.types.length [s.name.name] ⟨s.typeParams, s.type, false⟩

end GoSurface
