/-
# Comparing packages

Two revisions of a package are compared by its presence, then by its constants and variables, its
functions and its types.  Either revision may lack the package.

* `comparePackages` gives all changes;
* `diffPresence` gives those of the package as a whole.
-/
import GoSurface.Compare.Functions
import GoSurface.Compare.Types
import GoSurface.Compare.Values

namespace GoSurface

/-- The package itself was added or removed. -/
def diffPresence : Option Package → Option Package → Diff
  | some p, none => [.removed .major .packageRemoved p.snippet]
  | none, some l => [.added .minor .packageAdded l.snippet]
  | _, _ => []

/-- All changes from one revision of a package to another. -/
def comparePackages (previous latest : Option Package) : Diff :=
  diffPresence previous latest ++ diffValues previous latest ++ diffFunctions previous latest ++
    diffTypes previous latest

/-- Packages of different names are a removal and an addition. -/
def compareAsReplacement (previous latest : Package) : Diff :=
  if previous.name = latest.name then comparePackages (some previous) (some latest)
  else comparePackages (some previous) none ++ comparePackages none (some latest)

end GoSurface
