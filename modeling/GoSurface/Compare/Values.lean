/-
# Constants and variables

Declarations of constants and variables are paired by kind and names.  Those that declare an
unexported name are left out.

* `diffValues` reports what was added, removed or changed.
-/
import GoSurface.Change
import GoSurface.Compare.Equality
import GoSurface.Compare.Pairing

namespace GoSurface

/-- The declarations all of whose names are exported. -/
def exportedValues (p : Option Package) : List ValueSpec :=
  match p with
  | some p => p.values.filter fun v => v.names.all Ident.isExported
  | none => []

def ValueSpec.key (v : ValueSpec) : ValueKind × List String :=
  (v.kind, v.names.map (·.name))

/-- Names in two rows are the same, position by position. -/
def sameNames (xs ys : List Ident) : Bool :=
  xs.length = ys.length && (xs.zip ys).all fun (x, y) => x.same y

/-- Names, type and values agree. -/
def ValueSpec.same (a b : ValueSpec) : Bool :=
  sameNames a.names b.names && Expr.sameOption a.type b.type && Expr.sameList a.values b.values

/-- The change that a pair of declarations amounts to. -/
def valueChange : Pair ValueSpec → Option Change
  | .added l => some (.added .minor (.valueAdded l.kind) l.snippet)
  | .removed p => some (.removed .major (.valueRemoved p.kind) p.snippet)
  | .both p l =>
    if p.same l then none
    else some (.changed .major (.valueChanged p.kind) p.snippet l.snippet)

/-- The changes in the constants and variables of a package. -/
def diffValues (previous latest : Option Package) : Diff :=
  (pairByKey ValueSpec.key (exportedValues previous) (exportedValues latest)).filterMap valueChange

end GoSurface
