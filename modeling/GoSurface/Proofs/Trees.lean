/-
# Comparing trees, package by package

Two trees are compared by going through the directories of both.  The result does not show this:
it is what comes out of a plan, a list of comparisons of two packages.  The plan has one comparison
for each directory and clause that either tree has a package for, ordered by directory and then by
clause, and what a tree offers for a directory and a clause depends on its sources alone.

* `Comparison`, `IsPlan`: two packages side by side, and all of them in order;
* `compareTrees_eq_ok_iff`: comparing trees is following the plan, if all sources parse;
* `compareTrees_follows_plan`: every package is compared once;
* `compareTrees_empty_root_follows_no_plan`: a root that is the empty path;
* `compareTrees_of_sources_eq`: what is no source has no influence.
-/
import GoSurface.Proofs.Releases
import GoSurface.Proofs.TreeChecks

namespace GoSurface

/-! ## Plans -/

/-- The packages of two trees for one directory and one clause; a tree may have none. -/
structure Comparison where
  dir : Location
  clause : String
  previous : Option Package
  latest : Option Package

namespace Comparison

/-- The changes that a comparison finds. -/
def diff (x : Comparison) : Diff :=
  comparePackages x.previous x.latest

/-- By directory, then by clause. -/
def Before (x y : Comparison) : Prop :=
  x.dir < y.dir ∨ x.dir = y.dir ∧ x.clause < y.clause

theorem Before.asymm {x y : Comparison} (hxy : x.Before y) : ¬ y.Before x := by
  rintro (hyx | ⟨hdir, hyx⟩)
  · rcases hxy with hxy | ⟨hdir, -⟩
    · exact lt_asymm hxy hyx
    · exact lt_irrefl _ (hdir ▸ hyx)
  · rcases hxy with hxy | ⟨-, hxy⟩
    · exact lt_irrefl _ (hdir ▸ hxy)
    · exact lt_asymm hxy hyx

end Comparison

section Plans

variable {S T : Set SourceFile} {previous latest : String}

/-- Every source can be read and parses. -/
def AllParse (S : Set SourceFile) (root : String) : Prop :=
  ∀ s ∈ S, ∃ f, s.ParsesTo root f

/-- What a tree has for a directory and a clause: the package of the sources with that clause, or
none. -/
def Offers (S : Set SourceFile) (root : String) (dir : Location) (clause : String)
    (o : Option Package) : Prop :=
  ∃ xs, IsListing S root dir xs ∧ o = packageOf clause (xs.map Prod.snd)

/-- The comparisons for all that two trees have, in order. -/
structure IsPlan (S T : Set SourceFile) (previous latest : String) (plan : List Comparison) :
    Prop where
  ordered : plan.Pairwise Comparison.Before
  mem_iff : ∀ x, x ∈ plan ↔
    Offers S previous x.dir x.clause x.previous ∧ Offers T latest x.dir x.clause x.latest ∧
      (x.previous.isSome ∨ x.latest.isSome)

/-- There is one plan. -/
theorem IsPlan.unique {xs ys : List Comparison} (hxs : IsPlan S T previous latest xs)
    (hys : IsPlan S T previous latest ys) : xs = ys := by
  have hasymm : ∀ x y : Comparison, x.Before y → ¬ y.Before x := fun _ _ => Comparison.Before.asymm
  apply eq_of_pairwise_of_mem_iff hasymm hxs.ordered hys.ordered
  intro x
  rw [hxs.mem_iff, hys.mem_iff]

/-- The comparisons for the files of one directory. -/
def comparisonsIn (dir : Location) (fs gs : List File) : List Comparison :=
  (clausesOf fs gs).map fun clause => ⟨dir, clause, packageOf clause fs, packageOf clause gs⟩

theorem mem_comparisonsIn {dir : Location} {fs gs : List File} {x : Comparison} :
    x ∈ comparisonsIn dir fs gs ↔ x.dir = dir ∧ x.previous = packageOf x.clause fs ∧
      x.latest = packageOf x.clause gs ∧ (x.previous.isSome ∨ x.latest.isSome) := by
  rw [comparisonsIn, List.mem_map]
  constructor
  · rintro ⟨clause, hclause, rfl⟩
    exact ⟨rfl, rfl, rfl, mem_clausesOf.mp hclause⟩
  · rintro ⟨rfl, hprevious, hlatest, hsome⟩
    refine ⟨x.clause, mem_clausesOf.mpr ?_, ?_⟩
    · rwa [← hprevious, ← hlatest]
    · rw [← hprevious, ← hlatest]

theorem pairwise_comparisonsIn (dir : Location) (fs gs : List File) :
    (comparisonsIn dir fs gs).Pairwise Comparison.Before := by
  have hclauses : (clausesOf fs gs).Pairwise (· < ·) := pairwise_sortedSet (by simp) _
  rw [comparisonsIn, List.pairwise_map]
  exact hclauses.imp fun hlt => Or.inr ⟨rfl, hlt⟩

/-- A directory for which a tree offers a package has sources. -/
theorem Offers.exists_source {root : String} {dir : Location} {clause : String}
    {o : Option Package} (h : Offers S root dir clause o) (ho : o.isSome) :
    ∃ s ∈ S, s.dir = dir := by
  obtain ⟨xs, hxs, rfl⟩ := h
  have hmem := isSome_packageOf.mp ho
  rw [List.map_map, List.mem_map] at hmem
  obtain ⟨x, hx, -⟩ := hmem
  obtain ⟨content, hs, -⟩ := hxs.sound x hx
  exact ⟨_, hs, rfl⟩

/-- Going through the directories in order, and in each through the clauses, makes up the plan. -/
theorem isPlan_flatMap (hS : OneContent S) (hT : OneContent T) {dirs : List Location}
    (hdirs : dirs.Pairwise (· < ·)) (hSdirs : ∀ s ∈ S, s.dir ∈ dirs)
    (hTdirs : ∀ t ∈ T, t.dir ∈ dirs) {xs ys : Location → List (String × File)}
    (hxs : ∀ dir ∈ dirs, IsListing S previous dir (xs dir))
    (hys : ∀ dir ∈ dirs, IsListing T latest dir (ys dir)) :
    IsPlan S T previous latest (dirs.flatMap fun dir =>
      comparisonsIn dir ((xs dir).map Prod.snd) ((ys dir).map Prod.snd)) := by
  constructor
  · rw [List.pairwise_flatMap]
    refine ⟨fun dir _ => pairwise_comparisonsIn dir _ _, hdirs.imp ?_⟩
    intro dir dir' hlt x hx y hy
    obtain ⟨rfl, -⟩ := mem_comparisonsIn.mp hx
    obtain ⟨rfl, -⟩ := mem_comparisonsIn.mp hy
    exact Or.inl hlt
  · intro x
    rw [List.mem_flatMap]
    constructor
    · rintro ⟨dir, hdir, hx⟩
      obtain ⟨rfl, hprevious, hlatest, hsome⟩ := mem_comparisonsIn.mp hx
      exact ⟨⟨_, hxs _ hdir, hprevious⟩, ⟨_, hys _ hdir, hlatest⟩, hsome⟩
    · rintro ⟨hprevious, hlatest, hsome⟩
      -- a package that is offered has a source, and the directory of that source is visited
      have hdir : x.dir ∈ dirs := by
        rcases hsome with hsome | hsome
        · obtain ⟨s, hs, hsdir⟩ := hprevious.exists_source hsome
          exact hsdir ▸ hSdirs s hs
        · obtain ⟨t, ht, htdir⟩ := hlatest.exists_source hsome
          exact htdir ▸ hTdirs t ht
      obtain ⟨xs', hxs', hprevious⟩ := hprevious
      obtain ⟨ys', hys', hlatest⟩ := hlatest
      obtain rfl := hxs'.unique hS (hxs _ hdir)
      obtain rfl := hys'.unique hT (hys _ hdir)
      exact ⟨x.dir, hdir, mem_comparisonsIn.mpr ⟨rfl, hprevious, hlatest, hsome⟩⟩

/-- What a plan finds is as severe as its most severe comparison. -/
theorem severity_flatMap_diff (plan : List Comparison) :
    Diff.severity (plan.flatMap Comparison.diff) =
      (plan.map fun x => Diff.severity x.diff).foldr max .patch := by
  induction plan with
  | nil => rfl
  | cons x plan ih => rw [List.flatMap_cons, Diff.severity_append, ih, List.map_cons,
      List.foldr_cons]

/-- Next to a tree without sources, all that a plan finds is new. -/
theorem IsPlan.severity_le_minor (hS : ∀ s, s ∉ S) {plan : List Comparison}
    (hplan : IsPlan S T previous latest plan) :
    Diff.severity (plan.flatMap Comparison.diff) ≤ .minor := by
  rw [Diff.severity_le_iff]
  intro change hchange
  obtain ⟨x, hx, hchange⟩ := List.mem_flatMap.mp hchange
  obtain ⟨hprevious, -, -⟩ := (hplan.mem_iff x).mp hx
  have hnone : x.previous = none := by
    by_contra hsome
    obtain ⟨s, hs, -⟩ := hprevious.exists_source (Option.isSome_iff_ne_none.mpr hsome)
    exact hS s hs
  rw [Comparison.diff, hnone] at hchange
  cases hlatest : x.latest with
  | none =>
    rw [hlatest] at hchange
    cases hchange
  | some l =>
    rw [hlatest] at hchange
    exact Diff.severity_le_iff.mp (severity_comparePackages_of_none l).le change hchange

end Plans

/-! ## Following the plan -/

section Following

variable {d : Disk.Sound} {c : Config} {previous latest : String}

/-- The directories of two trees, in order. -/
def visitedDirs (d : Disk) (c : Config) (previous latest : String) : List Location :=
  sortedSet Location.before (directories d c previous ++ directories d c latest)

theorem compareTrees_eq (d : Disk) :
    compareTrees d c previous latest = (do
      let _ ← listDirectories d c previous
      let _ ← listDirectories d c latest
      let diffs ← (visitedDirs d c previous latest).mapM fun dir =>
        compareDirs d c (pathBelow previous dir) (pathBelow latest dir)
      return diffs.flatten) := by
  rw [compareTrees]
  cases hp : listDirectories d c previous with
  | error e => rfl
  | ok ps =>
    cases hl : listDirectories d c latest with
    | error e => rfl
    | ok ls =>
      have hdirs : sortedSet Location.before (ps ++ ls) = visitedDirs d c previous latest := by
        refine sortedSet_congr Location.before_iff_lt fun dir => ?_
        rw [(listDirectories_eq_ok_iff.mp hp).1, (listDirectories_eq_ok_iff.mp hl).1]
        simp only [List.mem_append, mem_sortedSet]
      simp only [bind, Except.bind, hdirs]

/-- All directories of two trees are visited. -/
theorem compareTrees_of_isTree (hp : IsTree d c previous) (hl : IsTree d c latest) :
    compareTrees d c previous latest = (do
      let diffs ← (visitedDirs d c previous latest).mapM fun dir =>
        compareDirs d c (pathBelow previous dir) (pathBelow latest dir)
      return diffs.flatten) := by
  rw [compareTrees_eq, hp.listDirectories_eq, hl.listDirectories_eq]
  rfl

theorem mem_visitedDirs (hp : IsTree d c previous) (hl : IsTree d c latest)
    {dir : Location} :
    dir ∈ visitedDirs d c previous latest ↔
      dir ∈ treeDirs d c previous ∨ dir ∈ treeDirs d c latest := by
  rw [visitedDirs, mem_sortedSet, List.mem_append, hp.mem_directories, hl.mem_directories]

/-- The directories of all sources are visited. -/
theorem dir_mem_visitedDirs (hp : IsTree d c previous)
    (hl : IsTree d c latest) {s : SourceFile}
    (hs : s ∈ loaded d c previous ∨ s ∈ loaded d c latest) :
    s.dir ∈ visitedDirs d c previous latest := by
  rw [mem_visitedDirs hp hl]
  rcases hs with hs | hs
  · exact Or.inl (IsTree.dir_mem_treeDirs hs)
  · exact Or.inr (IsTree.dir_mem_treeDirs hs)

theorem pairwise_visitedDirs : (visitedDirs d c previous latest).Pairwise (· < ·) :=
  pairwise_sortedSet Location.before_iff_lt _

/-- Two directories are compared clause by clause, from their listings. -/
theorem compareDirs_eq_ok_iff (hp : IsTree d c previous)
    (hl : IsTree d c latest) {dir : Location} (hdir : dir ∈ visitedDirs d c previous latest)
    {diff : Diff} :
    compareDirs d c (pathBelow previous dir) (pathBelow latest dir) = .ok diff ↔
      ∃ xs ys, IsListing (loaded d c previous) previous dir xs ∧
        IsListing (loaded d c latest) latest dir ys ∧
        diff = (comparisonsIn dir (xs.map Prod.snd) (ys.map Prod.snd)).flatMap Comparison.diff := by
  obtain ⟨hnames, hkept⟩ : (∀ name ∈ dir, Path.IsName name) ∧
      ∀ name ∈ dir, c.isIgnored name = false := by
    rcases (mem_visitedDirs hp hl).mp hdir with hdir | hdir
    · exact ⟨IsTree.isName hdir, hdir.1⟩
    · exact ⟨IsTree.isName hdir, hdir.1⟩
  have hblock : ∀ fs gs, (comparisonsIn dir fs gs).flatMap Comparison.diff =
      compareLoaded (groupPackages fs) (groupPackages gs) := by
    intro fs gs
    rw [compareLoaded_groupPackages, comparisonsIn, List.flatMap_map]
    rfl
  simp only [hblock, compareDirs, bind_eq_ok_iff, hp.loadPackages_pathBelow_iff hnames hkept,
    hl.loadPackages_pathBelow_iff hnames hkept]
  constructor
  · rintro ⟨_, ⟨xs, hxs, rfl⟩, _, ⟨ys, hys, rfl⟩, hdiff⟩
    cases hdiff
    exact ⟨xs, ys, hxs, hys, rfl⟩
  · rintro ⟨xs, ys, hxs, hys, rfl⟩
    exact ⟨_, ⟨xs, hxs, rfl⟩, _, ⟨ys, hys, rfl⟩, rfl⟩

/-- From listings of all directories, the plan and what comes out of it. -/
theorem exists_plan_of_listings (hp : IsTree d c previous)
    (hl : IsTree d c latest)
    (hlistings : ∀ dir ∈ visitedDirs d c previous latest,
      (∃ xs, IsListing (loaded d c previous) previous dir xs) ∧
        ∃ ys, IsListing (loaded d c latest) latest dir ys) :
    ∃ plan, IsPlan (loaded d c previous) (loaded d c latest) previous latest plan ∧
      compareTrees d c previous latest = .ok (plan.flatMap Comparison.diff) := by
  -- one listing for each directory of either tree, chosen once for the plan and for the calls
  choose! hxs hys using hlistings
  choose! xs hxs using hxs
  choose! ys hys using hys
  refine ⟨_, isPlan_flatMap IsTree.oneContent_loaded IsTree.oneContent_loaded
    pairwise_visitedDirs (fun s hs => dir_mem_visitedDirs hp hl (Or.inl hs))
    (fun t ht => dir_mem_visitedDirs hp hl (Or.inr ht)) hxs hys, ?_⟩
  have hdiffs := mapM_eq_ok_map fun dir hdir => (compareDirs_eq_ok_iff hp hl hdir).mpr
    ⟨xs dir, ys dir, hxs dir hdir, hys dir hdir, rfl⟩
  rw [compareTrees_of_isTree hp hl, hdiffs, List.flatMap_assoc]
  rfl

/-- If all sources parse, there is a plan and it is followed. -/
theorem exists_plan_of_allParse (hp : IsTree d c previous)
    (hl : IsTree d c latest) (hS : AllParse (loaded d c previous) previous)
    (hT : AllParse (loaded d c latest) latest) :
    ∃ plan, IsPlan (loaded d c previous) (loaded d c latest) previous latest plan ∧
      compareTrees d c previous latest = .ok (plan.flatMap Comparison.diff) := by
  apply exists_plan_of_listings hp hl
  intro dir _
  exact ⟨(hp.exists_isListing_iff).mpr fun s hs _ => hS s hs,
    (hl.exists_isListing_iff).mpr fun t ht _ => hT t ht⟩

/-- Comparing trees is following the plan; it succeeds if all sources of both trees parse. -/
theorem compareTrees_eq_ok_iff (hp : IsTree d c previous)
    (hl : IsTree d c latest) {diff : Diff} :
    compareTrees d c previous latest = .ok diff ↔
      AllParse (loaded d c previous) previous ∧ AllParse (loaded d c latest) latest ∧
        ∃ plan, IsPlan (loaded d c previous) (loaded d c latest) previous latest plan ∧
          diff = plan.flatMap Comparison.diff := by
  constructor
  · intro hdiff
    obtain ⟨diffs, hdiffs, -⟩ := bind_eq_ok_iff.mp (compareTrees_of_isTree hp hl ▸ hdiff)
    have hlistings : ∀ dir ∈ visitedDirs d c previous latest,
        (∃ xs, IsListing (loaded d c previous) previous dir xs) ∧
          ∃ ys, IsListing (loaded d c latest) latest dir ys := by
      intro dir hdir
      obtain ⟨_, hdirDiff⟩ := exists_mapM_eq_ok_iff.mp ⟨diffs, hdiffs⟩ dir hdir
      obtain ⟨xs, ys, hxs, hys, -⟩ := (compareDirs_eq_ok_iff hp hl hdir).mp hdirDiff
      exact ⟨⟨xs, hxs⟩, ⟨ys, hys⟩⟩
    refine ⟨?_, ?_, ?_⟩
    · intro s hs
      have hdir := dir_mem_visitedDirs hp hl (Or.inl hs)
      exact (hp.exists_isListing_iff).mp (hlistings s.dir hdir).1 s hs rfl
    · intro t ht
      have hdir := dir_mem_visitedDirs hp hl (Or.inr ht)
      exact (hl.exists_isListing_iff).mp (hlistings t.dir hdir).2 t ht rfl
    · obtain ⟨plan, hplan, hok⟩ := exists_plan_of_listings hp hl hlistings
      rw [hdiff, Except.ok.injEq] at hok
      exact ⟨plan, hplan, hok⟩
  · rintro ⟨hS, hT, plan, hplan, rfl⟩
    -- the plan that the calls follow is this one, since there is only one
    obtain ⟨plan', hplan', hok⟩ := exists_plan_of_allParse hp hl hS hT
    rw [hplan.unique hplan', hok]

/-- All sources parse if and only if there is a result. -/
theorem exists_compareTrees_iff (hp : IsTree d c previous)
    (hl : IsTree d c latest) :
    (∃ diff, compareTrees d c previous latest = .ok diff) ↔
      AllParse (loaded d c previous) previous ∧ AllParse (loaded d c latest) latest := by
  constructor
  · rintro ⟨diff, hdiff⟩
    obtain ⟨hS, hT, -⟩ := (compareTrees_eq_ok_iff hp hl).mp hdiff
    exact ⟨hS, hT⟩
  · rintro ⟨hS, hT⟩
    obtain ⟨plan, -, hok⟩ := exists_plan_of_allParse hp hl hS hT
    exact ⟨_, hok⟩

end Following

/-! ## Every package once -/

/-- Two trees can be compared if and only if every file of them that counts can be read and parses.
The result is then that of the plan: of each directory in order and of each clause in order, the
changes between the packages that the trees have there, and it is as severe as the most severe of
these comparisons. -/
theorem compareTrees_follows_plan (d : Disk.Sound) (c : Config) (previous latest : String)
    (hp : IsTree d c previous) (hl : IsTree d c latest) :
    ((∃ diff, compareTrees d c previous latest = .ok diff) ↔
      AllParse (loaded d c previous) previous ∧ AllParse (loaded d c latest) latest) ∧
    ∀ diff, compareTrees d c previous latest = .ok diff →
      ∃ plan, IsPlan (loaded d c previous) (loaded d c latest) previous latest plan ∧
        diff = plan.flatMap Comparison.diff ∧
        Diff.severity diff = (plan.map fun x => Diff.severity x.diff).foldr max .patch := by
  refine ⟨exists_compareTrees_iff hp hl, ?_⟩
  intro diff hdiff
  obtain ⟨-, -, plan, hplan, rfl⟩ := (compareTrees_eq_ok_iff hp hl).mp hdiff
  exact ⟨plan, hplan, rfl, severity_flatMap_diff plan⟩

/-- Two revisions of a program side by side: one package has changed and one is new. -/
def sideBySide : List (Location × Entry) :=
  [(["previous"], .dir),
    (["previous", "fruit.go"], .file (.ok "package fruit\n\nfunc Peel() {}\n".toUTF8)),
    (["latest"], .dir),
    (["latest", "fruit.go"], .file (.ok "package fruit\n\nfunc Peel(n int) {}\n".toUTF8)),
    (["latest", "tools"], .dir),
    (["latest", "tools", "main.go"], .file (.ok "package main\n\nfunc Run() {}\n".toUTF8))]

/-- Files that do not count, unreadable and broken ones among them, and a directory without
files. -/
def uncounted : List (Location × Entry) :=
  [(["latest", ".git"], .dir),
    (["latest", ".git", "hook.go"], .file (.error (.other "Permission denied (os error 13)"))),
    (["latest", "fruit_test.go"], .file (.ok "package (".toUTF8)),
    (["previous", "README"], .file (.ok ⟨#[0xff]⟩)), (["previous", "empty"], .dir)]

/-- The two revisions and nothing else. -/
def plainRevisions : Disk.Sound where
  entries := sideBySide
  wellFormed := by decide +kernel

/-- The two revisions among files that do not count. -/
def revisionsWithUncounted : Disk.Sound where
  entries := sideBySide ++ uncounted
  wellFormed := by decide +kernel

/-- What changed between the two revisions. -/
def sideBySideDiff : Diff :=
  [.changed .major .signatureChanged ⟨"Peel", ⟨"previous/fruit.go", 3, 1⟩, "func Peel()"⟩
      ⟨"Peel", ⟨"latest/fruit.go", 3, 1⟩, "func Peel(n int)"⟩,
    .added .minor .packageAdded ⟨"main", ⟨"latest/tools/main.go", 1, 1⟩, "package main"⟩,
    .added .minor .functionAdded ⟨"Run", ⟨"latest/tools/main.go", 3, 1⟩, "func Run()"⟩]

theorem isTree_plainRevisions :
    IsTree plainRevisions {} "previous" ∧ IsTree plainRevisions {} "latest" := by
  rw [← treeCheck_iff, ← treeCheck_iff]
  decide +kernel

theorem isTree_revisionsWithUncounted :
    IsTree revisionsWithUncounted {} "previous" ∧ IsTree revisionsWithUncounted {} "latest" := by
  rw [← treeCheck_iff, ← treeCheck_iff]
  decide +kernel

theorem compareTrees_revisionsWithUncounted :
    compareTrees revisionsWithUncounted {} "previous" "latest" = .ok sideBySideDiff := by
  decide +kernel

/-- The plan for two trees with a changed package, a new one, and files that do not count. -/
theorem compareTrees_follows_plan_with_uncounted :
    (AllParse (loaded revisionsWithUncounted {} "previous") "previous" ∧
        AllParse (loaded revisionsWithUncounted {} "latest") "latest") ∧
      ∃ plan, IsPlan (loaded revisionsWithUncounted {} "previous")
          (loaded revisionsWithUncounted {} "latest") "previous" "latest" plan ∧
        sideBySideDiff = plan.flatMap Comparison.diff ∧
        Diff.severity sideBySideDiff =
          (plan.map fun x => Diff.severity x.diff).foldr max .patch := by
  obtain ⟨hp, hl⟩ := isTree_revisionsWithUncounted
  obtain ⟨hparse, hplan⟩ := compareTrees_follows_plan _ _ _ _ hp hl
  exact ⟨hparse.mp ⟨_, compareTrees_revisionsWithUncounted⟩,
    hplan _ compareTrees_revisionsWithUncounted⟩

/-- A tree, and outside of it a directory of the same name as one that is in it. -/
def directoryOutside : Disk.Sound where
  entries :=
    [(["sub"], .dir), (["sub", "x.go"], .file (.ok "package x\n\nfunc Old() {}\n".toUTF8)),
      (["latest"], .dir), (["latest", "sub"], .dir),
      (["latest", "sub", "x.go"], .file (.ok "package x\n\nfunc New() {}\n".toUTF8))]
  wellFormed := by decide +kernel

/-- The empty path leads nowhere, but a path joined to it leads below the working directory.  As a
root it offers packages that are in no tree, and what is reported is the result of no plan. -/
theorem compareTrees_empty_root_follows_no_plan :
    directoryOutside.dirAt? "" = none ∧ IsTree directoryOutside {} "latest" ∧
      ∃ diff, compareTrees directoryOutside {} "" "latest" = .ok diff ∧
        ¬ ∃ plan, IsPlan (sources directoryOutside {} "") (sources directoryOutside {} "latest")
            "" "latest" plan ∧
          diff = plan.flatMap Comparison.diff := by
  have hmissing : directoryOutside.dirAt? "" = none := by decide +kernel
  refine ⟨hmissing, treeCheck_iff.mp (by decide +kernel),
    [.removed .major .functionRemoved ⟨"Old", ⟨"sub/x.go", 3, 1⟩, "func Old()"⟩,
      .added .minor .functionAdded ⟨"New", ⟨"latest/sub/x.go", 3, 1⟩, "func New()"⟩],
    by decide +kernel, ?_⟩
  rintro ⟨plan, hplan, hdiff⟩
  have hnone : ∀ s, s ∉ sources directoryOutside {} "" := by
    rintro s ⟨-, -, loc, hroot, -⟩
    rw [hmissing] at hroot
    cases hroot
  have hminor := hplan.severity_le_minor hnone
  rw [← hdiff] at hminor
  exact absurd hminor (by decide)

/-! ## What has no influence -/

/-- Disks whose trees have the same sources have the same changes, or none of them can be compared:
nothing that is no source is looked at. -/
theorem compareTrees_of_sources_eq (d d' : Disk.Sound) (c : Config) (previous latest : String)
    (hp : IsTree d c previous) (hl : IsTree d c latest)
    (hp' : IsTree d' c previous) (hl' : IsTree d' c latest)
    (hprevious : sources d c previous = sources d' c previous)
    (hlatest : sources d c latest = sources d' c latest) :
    ∀ diff, compareTrees d c previous latest = .ok diff ↔
      compareTrees d' c previous latest = .ok diff := by
  have hS : loaded d c previous = loaded d' c previous := by rw [loaded, hprevious, loaded]
  have hT : loaded d c latest = loaded d' c latest := by rw [loaded, hlatest, loaded]
  intro diff
  rw [compareTrees_eq_ok_iff hp hl, compareTrees_eq_ok_iff hp' hl', hS, hT]

/-- The two revisions have the same changes without the files that do not count. -/
theorem compareTrees_without_uncounted :
    compareTrees plainRevisions {} "previous" "latest" = .ok sideBySideDiff := by
  obtain ⟨hp, hl⟩ := isTree_plainRevisions
  obtain ⟨hp', hl'⟩ := isTree_revisionsWithUncounted
  have hsame : ∀ root,
      sourceList plainRevisions {} root = sourceList revisionsWithUncounted {} root →
      sources plainRevisions {} root = sources revisionsWithUncounted {} root := by
    intro root hlist
    ext s
    rw [← mem_sourceList, ← mem_sourceList, hlist]
  have hiff := compareTrees_of_sources_eq _ _ _ _ _ hp hl hp' hl' (hsame _ rfl) (hsame _ rfl)
  exact (hiff sideBySideDiff).mpr compareTrees_revisionsWithUncounted

end GoSurface
