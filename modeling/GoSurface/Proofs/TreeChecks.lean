/-
# Checking disks and trees

That a disk is sound, that a root is a tree and which sources a tree has are all said by
quantifying over locations.  The entries decide them, so they can be computed.

* `Disk.WellFormed` is decidable;
* `mem_sourceList`: the sources of a tree as a list;
* `treeCheck_iff`: a check for trees.
-/
import GoSurface.Proofs.Sources

namespace GoSurface

instance (d : Disk) (loc : Location) : Decidable (d.get? loc = some .dir) :=
  match d.get? loc with
  | some .dir => isTrue rfl
  | none => isFalse (by simp)
  | some (.file _) => isFalse (by simp)
  | some (.link _) => isFalse (by simp)

instance (d : Disk) : Decidable d.WellFormed :=
  decidable_of_iff
    ((d.entries.map Prod.fst).Nodup ∧ (∀ x ∈ d.entries, ∀ name ∈ x.1, Path.IsName name) ∧
      ∀ x ∈ d.entries, x.1 ≠ [] ∧ d.get? x.1.dropLast = some .dir)
    ⟨fun ⟨h₁, h₂, h₃⟩ => ⟨h₁, h₂, h₃⟩, fun h => ⟨h.1, h.2, h.3⟩⟩

variable {d : Disk.Sound} {c : Config} {root : String}

/-! ## Sources -/

/-- The source that an entry is, seen from a location above it. -/
def sourceBelow? (c : Config) (loc : Location) (x : Location × Entry) : Option SourceFile :=
  let names := x.1.drop loc.length
  match x.2, names.getLast? with
  | .file content, some name =>
    if loc.isPrefixOf x.1 && c.considers name && names.dropLast.all (!c.isIgnored ·) then
      some ⟨names.dropLast, name, content⟩
    else none
  | _, _ => none

/-- The sources of a tree, in the order of the entries. -/
def sourceList (d : Disk) (c : Config) (root : String) : List SourceFile :=
  match d.dirAt? root with
  | none => []
  | some loc => d.entries.filterMap (sourceBelow? c loc)

theorem sourceBelow?_eq_some_iff {loc : Location} {x : Location × Entry} {s : SourceFile} :
    sourceBelow? c loc x = some s ↔ x = (loc ++ s.dir ++ [s.name], .file s.content) ∧
      c.considers s.name = true ∧ ∀ name ∈ s.dir, c.isIgnored name = false := by
  obtain ⟨l, e⟩ := x
  obtain ⟨dir, name, content⟩ := s
  constructor
  · intro hsome
    cases e with
    | file bytes =>
      rcases List.eq_nil_or_concat' (l.drop loc.length) with hnil | ⟨init, last, hlast⟩
      · simp [sourceBelow?, hnil] at hsome
      · simp only [sourceBelow?, hlast, List.getLast?_append, List.getLast?_singleton,
          Option.some_or, List.dropLast_concat, Option.ite_none_right_eq_some, Bool.and_eq_true,
          Option.some.injEq, SourceFile.mk.injEq] at hsome
        obtain ⟨⟨⟨hstart, hconsiders⟩, hkept⟩, rfl, rfl, rfl⟩ := hsome
        obtain ⟨names, rfl⟩ := List.isPrefixOf_iff_prefix.mp hstart
        rw [List.drop_left] at hlast
        exact ⟨by simp [hlast], hconsiders, by simpa using hkept⟩
    | _ => simp [sourceBelow?] at hsome
  · rintro ⟨hx, hconsiders, hkept⟩
    obtain ⟨rfl, rfl⟩ := Prod.ext_iff.mp hx
    have hdrop : (loc ++ dir ++ [name]).drop loc.length = dir ++ [name] := by
      rw [List.append_assoc, List.drop_left]
    simpa [sourceBelow?, hdrop, hconsiders] using hkept

/-- The list has the sources of the tree. -/
theorem mem_sourceList {s : SourceFile} :
    s ∈ sourceList d c root ↔ s ∈ sources d c root := by
  rw [sourceList]
  cases hroot : d.dirAt? root with
  | none => simp [sources, hroot]
  | some loc =>
    simp only [List.mem_filterMap, sourceBelow?_eq_some_iff]
    constructor
    · rintro ⟨x, hx, rfl, hconsiders, hkept⟩
      exact ⟨hconsiders, hkept, loc, hroot, (d.get?_eq_some_iff (by simp)).mpr hx⟩
    · rintro ⟨hconsiders, hkept, loc', hroot', hget⟩
      rw [hroot, Option.some.injEq] at hroot'
      subst hroot'
      exact ⟨_, (d.get?_eq_some_iff (by simp)).mp hget, rfl, hconsiders, hkept⟩

/-! ## Trees -/

/-- Whether something is a link. -/
def Entry.isLink : Entry → Bool
  | .link _ => true
  | _ => false

/-- No links stand at a location or below it, by the entries. -/
theorem linkFree_iff {loc : Location} :
    d.LinkFree loc ↔ ∀ x ∈ d.entries, loc <+: x.1 → x.2.isLink = false := by
  constructor
  · rintro hfree ⟨l, e⟩ hx ⟨names, rfl⟩
    cases e with
    | link target =>
      have hne := (d.wellFormed.housed _ hx).1
      exact absurd ((d.get?_eq_some_iff hne).mpr hx) (hfree names target)
    | _ => rfl
  · intro hall names target hget
    by_cases hne : loc ++ names = []
    · rw [hne, Disk.get?_nil] at hget
      cases hget
    · have hlink := hall _ ((d.get?_eq_some_iff hne).mp hget) (List.prefix_append _ _)
      cases hlink

/-- Whether there is a tree at a root: no links at it or below it, and paths that lead to all its
directories. -/
def treeCheck (d : Disk) (c : Config) (root : String) : Bool :=
  root ≠ "" &&
    match d.dirAt? root with
    | none => true
    | some loc =>
      d.leadsTo? false root = some loc &&
      d.entries.all (fun x => !loc.isPrefixOf x.1 || !x.2.isLink) &&
      (dirsBelow d c loc).all fun dir => (d.dirAt? (pathBelow root dir)).isSome

theorem treeCheck_iff : treeCheck d c root = true ↔ IsTree d c root := by
  rw [treeCheck]
  cases hroot : d.dirAt? root with
  | none =>
    constructor
    · intro hcheck
      refine ⟨by simpa using hcheck, by simp [hroot], by simp [hroot], ?_⟩
      rintro dir ⟨-, loc, hloc, -⟩
      simp [hroot] at hloc
    · intro ht
      simpa using ht.named
  | some loc =>
    have hlinks : d.entries.all (fun x => !loc.isPrefixOf x.1 || !x.2.isLink) = true ↔
        d.LinkFree loc := by
      rw [linkFree_iff, List.all_eq_true]
      refine forall₂_congr fun x _ => ?_
      rw [← List.isPrefixOf_iff_prefix]
      cases loc.isPrefixOf x.1 <;> simp
    have hdirs : ((dirsBelow d c loc).all fun dir => (d.dirAt? (pathBelow root dir)).isSome) = true ↔
        ∀ dir ∈ treeDirs d c root, dir ≠ [] → (d.dirAt? (pathBelow root dir)).isSome := by
      rw [List.all_eq_true]
      constructor
      · rintro hall dir ⟨hkept, loc', hloc', hget⟩ hne
        rw [hroot, Option.some.injEq] at hloc'
        exact hall dir (Disk.Sound.mem_dirsBelow.mpr ⟨hne, hkept, hloc' ▸ hget⟩)
      · intro hall dir hdir
        obtain ⟨hne, hkept, hget⟩ := Disk.Sound.mem_dirsBelow.mp hdir
        exact hall dir ⟨hkept, loc, hroot, hget⟩ hne
    simp only [Bool.and_eq_true, decide_eq_true_eq, Disk.leadsTo?_eq_some_iff, hlinks, hdirs]
    constructor
    · rintro ⟨hnamed, ⟨hplain, hfree⟩, hlistable⟩
      refine ⟨hnamed, ?_, ?_, hlistable⟩
      · rintro l hl
        obtain rfl := Option.some.inj (hroot.symm.trans hl)
        exact hplain
      · rintro l hl
        obtain rfl := Option.some.inj (hroot.symm.trans hl)
        exact hfree
    · intro ht
      exact ⟨ht.named, ⟨ht.plain loc hroot, ht.linkFree loc hroot⟩, ht.listable⟩

end GoSurface
