/-
# Type declarations

Types are paired by name and compared by what they stand for and what is visible of it.  A struct
may grow at its end.

* `diffTypes` reports what was added, removed or changed.
-/
import GoSurface.Change
import GoSurface.Compare.Alias
import GoSurface.Compare.Equality
import GoSurface.Compare.Exported
import GoSurface.Compare.Pairing

namespace GoSurface

/-- The type declarations with an exported name. -/
def exportedTypes (p : Option Package) : List TypeSpec :=
  match p with
  | some p => p.types.filter (·.name.isExported)
  | none => []

def TypeSpec.key (t : TypeSpec) : String :=
  t.name.name

/-- How the visible parts of two types differ: structs may be equal or grow, other types must be
equal. -/
def visibleDifference? : Expr → Expr → Option Reason
  | .struct fs, .struct gs =>
    if Fields.same .significant fs gs then none
    else if Fields.extendedBy fs gs then some .fieldsAppended
    else some .typeChanged
  | a, b => if a.same b then none else some .typeChanged

/-- Why two declarations of one type differ, if they do.  The declared names are compared only if
neither side stands for another declaration. -/
def TypeSpec.difference? (p : TypeSpec) (previous : Package) (l : TypeSpec) (latest : Package) :
    Option Reason :=
  let a := previous.follow p
  let b := latest.follow l
  if !(a.viaName || b.viaName) && !p.name.same l.name then some .typeChanged
  else if !Fields.same .ignored a.typeParams b.typeParams then some .typeChanged
  else visibleDifference? a.type.exportedOnly b.type.exportedOnly

/-- The impact of a difference between two types: only structs that grow at their end are minor. -/
def typeSeverity : Reason → Severity
  | .fieldsAppended => .minor
  | _ => .major

/-- The change that a pair of type declarations of two packages amounts to. -/
def typeChange (previous latest : Option Package) : Pair TypeSpec → Option Change
  | .added l => some (.added .minor .typeAdded l.snippet)
  | .removed p => some (.removed .major .typeRemoved p.snippet)
  | .both p l =>
    match previous, latest with
    | some a, some b =>
      (p.difference? a l b).map fun reason =>
        .changed (typeSeverity reason) reason p.snippet l.snippet
    | _, _ => none

/-- The changes in the types of a package. -/
def diffTypes (previous latest : Option Package) : Diff :=
  (pairByKey TypeSpec.key (exportedTypes previous) (exportedTypes latest)).filterMap
    (typeChange previous latest)

end GoSurface
