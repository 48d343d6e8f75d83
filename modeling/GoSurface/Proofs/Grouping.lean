/-
# Files by package clause

The files of a directory are put into packages one after another, and packages are visited in the
order of a sorted set of names.  Neither shows in the result: the package of a clause has the files
with that clause, in order, and a sorted set is the one strictly increasing list of its members.

* `mem_sortedSet`, `pairwise_sortedSet`: what a sorted set has, and in which order;
* `find?_fileGroups`: the groups that files fall into;
* `findPackage_groupPackages`: the package of a clause;
* `compareLoaded_groupPackages`: comparing files clause by clause.
-/
import GoSurface.Directories
import Mathlib.Data.List.Induction
import Mathlib.Data.List.Lex
import Mathlib.Data.List.Sort
import Mathlib.Data.String.Basic

namespace GoSurface

/-! ## Sorted sets -/

section SortedSet

variable {α : Type} [DecidableEq α] {lt : α → α → Bool}

/-- Inserting adds one member. -/
theorem mem_insertSorted {a x : α} {bs : List α} :
    x ∈ insertSorted lt a bs ↔ x = a ∨ x ∈ bs := by
  induction bs with
  | nil => simp [insertSorted]
  | cons b bs ih =>
    rw [insertSorted]
    split
    · simp_all
    · split
      · rw [List.mem_cons]
      · rw [List.mem_cons, ih, List.mem_cons, or_left_comm]

/-- A sorted set has the members of the list. -/
theorem mem_sortedSet {x : α} {as : List α} : x ∈ sortedSet lt as ↔ x ∈ as := by
  induction as with
  | nil => rfl
  | cons a as ih =>
    have hcons : sortedSet lt (a :: as) = insertSorted lt a (sortedSet lt as) := rfl
    rw [hcons, mem_insertSorted, ih, List.mem_cons]

variable [LinearOrder α]

/-- Inserting keeps a list strictly increasing. -/
theorem pairwise_insertSorted (hlt : ∀ a b, lt a b = true ↔ a < b) {a : α} {bs : List α}
    (hbs : bs.Pairwise (· < ·)) : (insertSorted lt a bs).Pairwise (· < ·) := by
  induction bs with
  | nil => simp [insertSorted]
  | cons b bs ih =>
    have hb := List.pairwise_cons.mp hbs
    rw [insertSorted]
    by_cases heq : a = b
    · rwa [if_pos heq]
    rw [if_neg heq]
    by_cases hbefore : lt a b = true
    · have hab : a < b := (hlt a b).mp hbefore
      rw [if_pos hbefore, List.pairwise_cons]
      refine ⟨?_, hbs⟩
      intro x hx
      rcases List.mem_cons.mp hx with rfl | hx
      · exact hab
      · exact hab.trans (hb.1 x hx)
    · have hba : b < a := lt_of_le_of_ne (le_of_not_gt (mt (hlt a b).mpr hbefore)) (Ne.symm heq)
      rw [if_neg hbefore, List.pairwise_cons]
      refine ⟨?_, ih hb.2⟩
      intro x hx
      rcases mem_insertSorted.mp hx with rfl | hx
      · exact hba
      · exact hb.1 x hx

/-- A sorted set is strictly increasing. -/
theorem pairwise_sortedSet (hlt : ∀ a b, lt a b = true ↔ a < b) (as : List α) :
    (sortedSet lt as).Pairwise (· < ·) := by
  induction as with
  | nil => exact List.Pairwise.nil
  | cons a as ih => exact pairwise_insertSorted hlt ih

/-- Lists with the same members have the same sorted set. -/
theorem sortedSet_congr (hlt : ∀ a b, lt a b = true ↔ a < b) {as bs : List α}
    (h : ∀ x, x ∈ as ↔ x ∈ bs) : sortedSet lt as = sortedSet lt bs := by
  apply (pairwise_sortedSet hlt as).eq_of_mem_iff (pairwise_sortedSet hlt bs)
  intro x
  rw [mem_sortedSet, mem_sortedSet, h]

end SortedSet

/-- Lists in one strict order with the same members are equal. -/
theorem eq_of_pairwise_of_mem_iff {α : Type} {r : α → α → Prop} (hasymm : ∀ a b, r a b → ¬ r b a)
    {xs ys : List α} (hxs : xs.Pairwise r) (hys : ys.Pairwise r) (h : ∀ x, x ∈ xs ↔ x ∈ ys) :
    xs = ys := by
  have : Std.Irrefl r := ⟨fun a ha => hasymm a a ha ha⟩
  have : Std.Antisymm r := ⟨fun a b hab hba => absurd hba (hasymm a b hab)⟩
  exact hxs.eq_of_mem_iff hys h

/-- Paths are ordered as lists of names. -/
theorem Location.before_iff_lt (a b : Location) : Location.before a b = true ↔ a < b := by
  induction a generalizing b with
  | nil => cases b <;> simp [Location.before]
  | cons x xs ih =>
    cases b with
    | nil => simp [Location.before]
    | cons y ys => simp [Location.before, List.cons_lt_cons_iff, ih]

/-! ## Groups of files -/

/-- The files of each clause, in the order of the clauses. -/
def fileGroups (fs : List File) : List (String × List File) :=
  fs.foldl (fun ps f => addToPackages f ps) []

theorem fileGroups_append (fs : List File) (f : File) :
    fileGroups (fs ++ [f]) = addToPackages f (fileGroups fs) := by
  rw [fileGroups, List.foldl_append]
  rfl

/-- Clauses are inserted like members of a sorted set. -/
theorem keys_addToPackages (f : File) (ps : List (String × List File)) :
    (addToPackages f ps).map Prod.fst =
      insertSorted (fun a b => a < b) f.package (ps.map Prod.fst) := by
  induction ps with
  | nil => rfl
  | cons p ps ih =>
    obtain ⟨clause, fs⟩ := p
    rw [addToPackages, List.map_cons, insertSorted]
    by_cases heq : f.package = clause
    · have hirrefl : ¬ f.package < clause := by simp [heq]
      rw [if_neg hirrefl, if_pos heq, if_pos heq, List.map_cons]
    · by_cases hlt : f.package < clause
      · simp [heq, hlt]
      · simp [heq, hlt, ih]

/-- The groups are in the order of their clauses. -/
theorem pairwise_fileGroups (fs : List File) :
    ((fileGroups fs).map Prod.fst).Pairwise (· < ·) := by
  induction fs using List.reverseRecOn with
  | nil => exact List.Pairwise.nil
  | append_singleton fs f ih =>
    rw [fileGroups_append, keys_addToPackages]
    exact pairwise_insertSorted (by simp) ih

/-- There is a group for each clause of a file. -/
theorem mem_keys_fileGroups {fs : List File} {clause : String} :
    clause ∈ (fileGroups fs).map Prod.fst ↔ clause ∈ fs.map (·.package) := by
  induction fs using List.reverseRecOn with
  | nil => rfl
  | append_singleton fs f ih =>
    rw [fileGroups_append, keys_addToPackages, mem_insertSorted, ih, List.map_append,
      List.mem_append, List.map_singleton, List.mem_singleton, or_comm]

/-- A file is added to the group of its clause, and other groups stay as they are. -/
theorem find?_addToPackages (f : File) {ps : List (String × List File)}
    (hps : (ps.map Prod.fst).Pairwise (· < ·)) (clause : String) :
    (addToPackages f ps).find? (·.1 = clause) =
      if f.package = clause then
        some (clause, (ps.find? (·.1 = clause)).elim [] Prod.snd ++ [f])
      else ps.find? (·.1 = clause) := by
  induction ps with
  | nil => by_cases hf : f.package = clause <;> simp [addToPackages, hf]
  | cons p ps ih =>
    obtain ⟨name, fs⟩ := p
    obtain ⟨hname, hrest⟩ := List.pairwise_cons.mp hps
    rw [addToPackages]
    by_cases hlt : f.package < name
    · -- a new clause before all others, so there is no group that it could have been added to
      rw [if_pos hlt]
      by_cases hf : f.package = clause
      · have hnew : ((name, fs) :: ps).find? (·.1 = clause) = none := by
          rw [List.find?_eq_none]
          intro q hq
          have hbefore : f.package < q.1 := by
            rcases List.mem_cons.mp hq with rfl | hq
            · exact hlt
            · exact hlt.trans (hname q.1 (List.mem_map_of_mem hq))
          simpa [← hf] using hbefore.ne'
        simp [hf, hnew]
      · simp [hf]
    rw [if_neg hlt]
    by_cases heq : f.package = name
    · by_cases hf : f.package = clause <;> simp_all
    · rw [if_neg heq]
      by_cases hc : name = clause
      · have hf : f.package ≠ clause := hc ▸ heq
        simp [hc, hf]
      · simpa [hc] using ih hrest

/-- The group of a clause has the files with that clause, in order. -/
theorem find?_fileGroups (fs : List File) (clause : String) :
    (fileGroups fs).find? (·.1 = clause) =
      if (fs.filter (·.package = clause)).isEmpty then none
      else some (clause, fs.filter (·.package = clause)) := by
  induction fs using List.reverseRecOn with
  | nil => rfl
  | append_singleton fs f ih =>
    rw [fileGroups_append, find?_addToPackages f (pairwise_fileGroups fs), ih, List.filter_append]
    by_cases hf : f.package = clause
    · by_cases hown : (fs.filter (·.package = clause)) = [] <;> simp [hf, hown]
    · simp [hf]

/-! ## Packages of files -/

/-- The package that the files with a clause make up, if there are any. -/
def packageOf (clause : String) (fs : List File) : Option Package :=
  let own := fs.filter (·.package = clause)
  if own.isEmpty then none else some (Package.mk clause own).resolve

/-- There is a package if a file has its clause. -/
theorem isSome_packageOf {clause : String} {fs : List File} :
    (packageOf clause fs).isSome ↔ clause ∈ fs.map (·.package) := by
  by_cases hown : fs.filter (·.package = clause) = []
  · have hnone : ∀ f ∈ fs, f.package ≠ clause := by simpa using hown
    simpa [packageOf, hown] using hnone
  · obtain ⟨f, hf⟩ := List.exists_mem_of_ne_nil _ hown
    rw [List.mem_filter] at hf
    have hclause : ∃ f ∈ fs, f.package = clause := ⟨f, hf.1, by simpa using hf.2⟩
    simpa [packageOf, hown] using hclause

/-- The package of a clause among those of some files. -/
theorem findPackage_groupPackages (fs : List File) (clause : String) :
    findPackage (groupPackages fs) clause = packageOf clause fs := by
  have hgroups : groupPackages fs =
      (fileGroups fs).map fun p => (Package.mk p.1 p.2).resolve := rfl
  rw [findPackage, hgroups, List.find?_map]
  have hfind : ((fun p : Package => decide (p.name = clause)) ∘
      fun p : String × List File => (Package.mk p.1 p.2).resolve) = fun p => decide (p.1 = clause) :=
    rfl
  rw [hfind, find?_fileGroups, packageOf]
  split <;> rfl

/-- The names of the packages of some files are their clauses. -/
theorem mem_names_groupPackages {fs : List File} {clause : String} :
    clause ∈ (groupPackages fs).map (·.name) ↔ clause ∈ fs.map (·.package) := by
  have hnames : (groupPackages fs).map (·.name) = (fileGroups fs).map Prod.fst := by
    rw [groupPackages, List.map_map]
    rfl
  rw [hnames, mem_keys_fileGroups]

/-- The clauses of some files of two revisions, in order. -/
def clausesOf (fs gs : List File) : List String :=
  sortedSet (fun a b => a < b) ((fs ++ gs).map (·.package))

/-- A clause is visited if one of the revisions has a package of it. -/
theorem mem_clausesOf {fs gs : List File} {clause : String} :
    clause ∈ clausesOf fs gs ↔
      (packageOf clause fs).isSome ∨ (packageOf clause gs).isSome := by
  rw [clausesOf, mem_sortedSet, isSome_packageOf, isSome_packageOf, List.map_append,
    List.mem_append]

/-- Files of two revisions are compared clause by clause. -/
theorem compareLoaded_groupPackages (fs gs : List File) :
    compareLoaded (groupPackages fs) (groupPackages gs) =
      (clausesOf fs gs).flatMap fun clause =>
        comparePackages (packageOf clause fs) (packageOf clause gs) := by
  have hnames : sortedSet (fun a b => a < b)
      ((groupPackages fs ++ groupPackages gs).map (·.name)) = clausesOf fs gs := by
    apply sortedSet_congr (by simp)
    intro clause
    simp only [List.map_append, List.mem_append, mem_names_groupPackages]
  rw [compareLoaded, hnames]
  simp only [findPackage_groupPackages]

end GoSurface
