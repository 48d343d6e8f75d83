/-
# Comparing sources

Two revisions of a package given as the texts of single files.

* `compareSources` reads both, the previous one first, and compares the packages.
-/
import GoSurface.Compare.Packages
import GoSurface.Source.Files

namespace GoSurface

/-- The changes between two texts under the names of their files. -/
def compareSources (previousName previous latestName latest : String) : Except ParseError Diff := do
  let p ← Package.parse previousName previous
  let l ← Package.parse latestName latest
  return compareAsReplacement p l

end GoSurface
