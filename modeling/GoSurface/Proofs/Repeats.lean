/-
# Declarations that a package repeats

A directory can declare one name in several files, one for each platform.  Of the declarations with
one key, only the first on each side are partners, however many there are.  So a key that both
packages repeat is lost and new at once, even between a package and itself.

* `Package.occurrences`: how often a package has a key;
* `count_removedDecls`, `count_addedDecls`: how often a key is reported;
* `removed_and_added_iff_repeated`: which keys are reported both ways.
-/
import GoSurface.Scope
import GoSurface.Proofs.Findings

namespace GoSurface

/-- Whether a key is that of a method of an unexported type. -/
def DeclKey.isHidden : DeclKey → Bool
  | .func k => isHiddenKey k
  | _ => false

theorem Decl.isHidden_key (d : Decl) : d.key.isHidden = d.isHidden := by
  cases d with
  | func f => exact f.isHiddenKey_key
  | _ => rfl

/-- How many extracted declarations of a package have a key. -/
def Package.occurrences (p : Package) (k : DeclKey) : Nat :=
  (p.surface.map Decl.key).count k

/-- The unmatched declarations with one key: all but one, if the other package has the key. -/
theorem count_unmatched (P Q : Package) (k : DeclKey) :
    ((P.unmatched Q).map Decl.key).count k =
      P.occurrences k - min 1 (min (P.occurrences k) (Q.occurrences k)) := by
  rw [Package.unmatched, ((byCategory_perm _ _).map _).count_eq]
  exact count_removed Decl.key P.surface Q.surface k

/-- Every unmatched declaration of the second package is added. -/
theorem count_addedDecls (P Q : Package) (k : DeclKey) :
    ((addedDecls P Q).map Decl.key).count k =
      Q.occurrences k - min 1 (min (P.occurrences k) (Q.occurrences k)) := by
  rw [addedDecls_eq, count_unmatched, Nat.min_comm (Q.occurrences k)]

/-- Every unmatched declaration of the first package is removed, unless its key is hidden. -/
theorem count_removedDecls (P Q : Package) (k : DeclKey) :
    ((removedDecls P Q).map Decl.key).count k =
      if k.isHidden then 0
      else P.occurrences k - min 1 (min (P.occurrences k) (Q.occurrences k)) := by
  have hkeys : ((P.unmatched Q).filter fun d => !d.isHidden).map Decl.key =
      ((P.unmatched Q).map Decl.key).filter fun k => !k.isHidden := by
    rw [List.filter_map]
    congr 2
    funext d
    exact congrArg _ d.isHidden_key.symm
  rw [removedDecls_eq, hkeys]
  cases hk : k.isHidden with
  | true => exact List.count_eq_zero.mpr (by simp [hk])
  | false => rw [List.count_filter (by simp [hk]), count_unmatched, if_neg (by simp)]

/-- **Keys that are removed and added.**  However often two packages have a key, one pair of
declarations at most has it.  So a key is reported as removed and as added when both packages
repeat it, unless its methods are hidden. -/
theorem removed_and_added_iff_repeated (P Q : Package) (k : DeclKey) :
    comparePackages (some P) (some Q) = (findings P Q).map Finding.change ∧
    ((((P.pairs Q).filterMap Pair.partners?).map fun x => x.1.key).count k =
      min 1 (min (P.occurrences k) (Q.occurrences k))) ∧
    (k ∈ (removedDecls P Q).map Decl.key ∧ k ∈ (addedDecls P Q).map Decl.key ↔
      k.isHidden = false ∧ 2 ≤ P.occurrences k ∧ 2 ≤ Q.occurrences k) := by
  refine ⟨comparePackages_eq_findings P Q, count_partners Decl.key P.surface Q.surface k, ?_⟩
  rw [← List.count_pos_iff, ← List.count_pos_iff, count_removedDecls, count_addedDecls]
  cases k.isHidden with
  | true => simp
  | false =>
    simp only [Bool.false_eq_true, if_false, true_and]
    omega

/-- A function in the file for one platform. -/
def openDisk (file : String) : Decl :=
  .func ⟨none, ⟨"Open", none⟩, ⟨[], [], []⟩, ⟨file, 3, 1⟩⟩

/-- A package with one declaration of a function for each of two platforms. -/
def platformVariants : Package :=
  ⟨"disk", [⟨"open_darwin.go", "disk", [openDisk "open_darwin.go"]⟩,
    ⟨"open_linux.go", "disk", [openDisk "open_linux.go"]⟩]⟩

/-- Between the package and itself the function is removed and added, which is a major change. -/
theorem comparePackages_platformVariants_self :
    (comparePackages (some platformVariants.resolve) (some platformVariants.resolve)).map
      (fun c => (c.severity, c.reason)) =
        [(.major, .functionRemoved), (.minor, .functionAdded)] := by
  decide +kernel

end GoSurface
