import GoSurface.Cache
import GoSurface.Main
import GoSurface.Proofs.Additions
import GoSurface.Proofs.Releases
import GoSurface.Proofs.Spelling
import GoSurface.Proofs.Rearrangement
import GoSurface.Proofs.Arity
import GoSurface.Proofs.Grouping
import GoSurface.Proofs.Paths
import GoSurface.Proofs.Sources
import GoSurface.Proofs.Trees
import GoSurface.Proofs.TreeChecks
import GoSurface.Proofs.DiskChanges
import GoSurface.Proofs.CacheRuns
import GoSurface.Proofs.Links
import GoSurface.Proofs.CachePlaces
import GoSurface.Proofs.CacheSet
import GoSurface.Proofs.Canonical
import GoSurface.Proofs.TypeParams
import GoSurface.Proofs.Indirection
import GoSurface.Proofs.Chains
import GoSurface.Proofs.Evolution
import GoSurface.Proofs.Filtering
import GoSurface.Proofs.HiddenFields
import GoSurface.Proofs.OnePass
import GoSurface.Proofs.Scoping
import GoSurface.Proofs.Ordinals
import GoSurface.Proofs.SingleFiles
import GoSurface.Proofs.Provenance
import GoSurface.Proofs.CacheFailures
import GoSurface.Proofs.Separation
import GoSurface.Proofs.ConstGroups
