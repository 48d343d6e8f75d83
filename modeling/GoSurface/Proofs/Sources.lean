/-
# The sources of a tree

Of a tree below a root, comparing looks at the Go files that count and stand in no ignored
directory.  This module says which these are, by location, and shows that loading a directory finds
them: each directory of the tree is visited, the names in it are listed once and in order, and every
file is read through its path.

* `sources`: the files of a tree that count, by directory, name and content;
* `IsTree`: a root without links, whose directories can be listed;
* `IsListing`: the sources of a directory in order, with what they parse to;
* `IsTree.mem_directories`: the directories that are visited;
* `IsTree.loadPackages_pathBelow_iff`: the packages of a directory, from its listing.
-/
import GoSurface.Proofs.Grouping
import GoSurface.Proofs.Paths
import Mathlib.Data.Set.Defs

namespace GoSurface

/-! ## Calls for each entry of a list -/

section Calls

variable {α β ε : Type} {f : α → Except ε β} {xs : List α}

/-- Calls for a whole list succeed if every one of them does. -/
theorem mapM_eq_ok_iff {ys : List β} :
    xs.mapM f = .ok ys ↔ ∃ ps : List (α × β),
      ps.map Prod.fst = xs ∧ ps.map Prod.snd = ys ∧ ∀ p ∈ ps, f p.1 = .ok p.2 := by
  induction xs generalizing ys with
  | nil =>
    constructor
    · intro h
      cases h
      exact ⟨[], rfl, rfl, by simp⟩
    · rintro ⟨ps, hfst, rfl, -⟩
      rw [List.map_eq_nil_iff.mp hfst]
      rfl
  | cons x xs ih =>
    rw [List.mapM_cons, bind_eq_ok_iff]
    constructor
    · rintro ⟨y, hy, hxs⟩
      obtain ⟨zs, hzs, hys⟩ := bind_eq_ok_iff.mp hxs
      obtain ⟨ps, rfl, rfl, hps⟩ := ih.mp hzs
      cases hys
      exact ⟨(x, y) :: ps, rfl, rfl, List.forall_mem_cons.mpr ⟨hy, hps⟩⟩
    · rintro ⟨ps, hfst, rfl, hps⟩
      obtain ⟨⟨x', y⟩, qs, rfl⟩ : ∃ q qs, ps = q :: qs :=
        List.exists_cons_of_ne_nil (by rintro rfl; simp at hfst)
      obtain ⟨rfl, hrest⟩ : x' = x ∧ qs.map Prod.fst = xs := by simpa using hfst
      obtain ⟨hy, hqs⟩ := List.forall_mem_cons.mp hps
      exact ⟨y, hy, bind_eq_ok_iff.mpr ⟨qs.map Prod.snd, ih.mpr ⟨qs, hrest, rfl, hqs⟩, rfl⟩⟩

/-- Calls whose results are known, for a whole list. -/
theorem mapM_eq_ok_map {g : α → β} (h : ∀ x ∈ xs, f x = .ok (g x)) :
    xs.mapM f = .ok (xs.map g) := by
  refine mapM_eq_ok_iff.mpr ⟨xs.map fun x => (x, g x), by simp [Function.comp_def], by simp, ?_⟩
  simpa using h

/-- Calls for a whole list have results if each call has one. -/
theorem exists_mapM_eq_ok_iff : (∃ ys, xs.mapM f = .ok ys) ↔ ∀ x ∈ xs, ∃ y, f x = .ok y := by
  constructor
  · rintro ⟨ys, hys⟩ x hx
    obtain ⟨ps, rfl, -, hps⟩ := mapM_eq_ok_iff.mp hys
    obtain ⟨p, hp, rfl⟩ := List.mem_map.mp hx
    exact ⟨p.2, hps p hp⟩
  · intro h
    induction xs with
    | nil => exact ⟨[], rfl⟩
    | cons x xs ih =>
      obtain ⟨y, hy⟩ := h x (by simp)
      obtain ⟨ys, hys⟩ := ih fun z hz => h z (by simp [hz])
      refine ⟨y :: ys, ?_⟩
      rw [List.mapM_cons]
      exact bind_eq_ok_iff.mpr ⟨y, hy, bind_eq_ok_iff.mpr ⟨ys, hys, rfl⟩⟩

/-- Calls that have the same results one by one have them for a whole list. -/
theorem mapM_congr {g : α → Except ε β} (h : ∀ x ∈ xs, f x = g x) : xs.mapM f = xs.mapM g := by
  induction xs with
  | nil => rfl
  | cons x xs ih =>
    rw [List.mapM_cons, List.mapM_cons, h x (by simp), ih fun y hy => h y (by simp [hy])]

end Calls

/-! ## Sources -/

/-- A file below a root: its directory, its name there and what it holds. -/
structure SourceFile where
  dir : Location
  name : String
  content : Content

/-- The directories of a tree: those below the root with no ignored name on the way. -/
def treeDirs (d : Disk) (c : Config) (root : String) : Set Location :=
  {dir | (∀ name ∈ dir, c.isIgnored name = false) ∧
    ∃ loc, d.dirAt? root = some loc ∧ d.get? (loc ++ dir) = some .dir}

/-- The files of a tree that count, in the directories that are not ignored. -/
def sources (d : Disk) (c : Config) (root : String) : Set SourceFile :=
  {s | c.considers s.name = true ∧ (∀ name ∈ s.dir, c.isIgnored name = false) ∧
    ∃ loc, d.dirAt? root = some loc ∧ d.get? (loc ++ s.dir ++ [s.name]) = some (.file s.content)}

/-- The sources that are loaded.  The root itself is opened by its path with a slash behind, so
nothing is loaded if that makes the path too long. -/
def loaded (d : Disk) (c : Config) (root : String) : Set SourceFile :=
  {s | s ∈ sources d c root ∧ Disk.checkPath (pathBelow root []) = .ok ()}

/-- The path under which a file of a tree is read and reported. -/
def SourceFile.path (root : String) (s : SourceFile) : String :=
  Path.join (pathBelow root s.dir) s.name

/-- A file of a tree can be read, is text and parses. -/
def SourceFile.ParsesTo (root : String) (s : SourceFile) (f : File) : Prop :=
  Disk.checkPath (s.path root) = .ok () ∧
    ∃ text, Disk.textOf s.content = .ok text ∧ File.parse (s.path root) text = .ok f

/-- The files of a directory that count, by name and in order, each with what it parses to. -/
structure IsListing (S : Set SourceFile) (root : String) (dir : Location)
    (xs : List (String × File)) : Prop where
  sorted : (xs.map Prod.fst).Pairwise (· < ·)
  sound : ∀ x ∈ xs, ∃ content,
    ⟨dir, x.1, content⟩ ∈ S ∧ SourceFile.ParsesTo root ⟨dir, x.1, content⟩ x.2
  complete : ∀ s ∈ S, s.dir = dir → s.name ∈ xs.map Prod.fst

/-- No two of some files have the same place and different contents. -/
def OneContent (S : Set SourceFile) : Prop :=
  ∀ s ∈ S, ∀ t ∈ S, s.dir = t.dir → s.name = t.name → s = t

/-- A tree without links whose directories can be listed; its root may be missing or a file. -/
structure IsTree (d : Disk) (c : Config) (root : String) : Prop where
  named : root ≠ ""
  plain : ∀ loc, d.dirAt? root = some loc → d.locate false root = .ok (loc, .dir)
  linkFree : ∀ loc, d.dirAt? root = some loc → d.LinkFree loc
  listable : ∀ dir ∈ treeDirs d c root, dir ≠ [] → (d.dirAt? (pathBelow root dir)).isSome

/-! ## Listings -/

/-- A file parses in one way. -/
theorem SourceFile.ParsesTo.unique {root : String} {s : SourceFile} {f g : File}
    (hf : s.ParsesTo root f) (hg : s.ParsesTo root g) : f = g := by
  obtain ⟨-, text, htext, hparse⟩ := hf
  obtain ⟨-, text', htext', hparse'⟩ := hg
  rw [htext, Except.ok.injEq] at htext'
  rw [← htext', hparse, Except.ok.injEq] at hparse'
  exact hparse'

namespace IsListing

variable {S : Set SourceFile} {root : String} {dir : Location} {xs ys : List (String × File)}

/-- A directory without sources has the empty listing. -/
theorem iff_eq_nil (hnone : ∀ s ∈ S, s.dir ≠ dir) : IsListing S root dir xs ↔ xs = [] := by
  constructor
  · intro hxs
    rw [List.eq_nil_iff_forall_not_mem]
    intro x hx
    obtain ⟨content, hs, -⟩ := hxs.sound x hx
    exact hnone _ hs rfl
  · rintro rfl
    exact ⟨by simp, by simp, fun s hs hdir => absurd hdir (hnone s hs)⟩

/-- Every source of a listed directory parses. -/
theorem exists_parsesTo (hS : OneContent S) (hxs : IsListing S root dir xs) {s : SourceFile}
    (hs : s ∈ S) (hdir : s.dir = dir) : ∃ x ∈ xs, x.1 = s.name ∧ s.ParsesTo root x.2 := by
  obtain ⟨x, hx, hname⟩ := List.mem_map.mp (hxs.complete s hs hdir)
  obtain ⟨content, ht, hparses⟩ := hxs.sound x hx
  obtain rfl := hS _ ht s hs hdir.symm hname
  exact ⟨x, hx, rfl, hparses⟩

/-- A directory has one listing. -/
theorem unique (hS : OneContent S) (hxs : IsListing S root dir xs)
    (hys : IsListing S root dir ys) : xs = ys := by
  have hsub : ∀ {xs ys}, IsListing S root dir xs → IsListing S root dir ys →
      ∀ x ∈ xs, x ∈ ys := by
    intro xs ys hxs hys x hx
    obtain ⟨content, hs, hparses⟩ := hxs.sound x hx
    obtain ⟨y, hy, hname, hparses'⟩ := hys.exists_parsesTo hS hs rfl
    have heq : x = y := Prod.ext hname.symm (hparses.unique hparses')
    exact heq ▸ hy
  have hasymm : ∀ a b : String × File, a.1 < b.1 → ¬ b.1 < a.1 := fun a b => lt_asymm
  exact eq_of_pairwise_of_mem_iff hasymm (List.pairwise_map.mp hxs.sorted)
    (List.pairwise_map.mp hys.sorted) fun x => ⟨hsub hxs hys x, hsub hys hxs x⟩

end IsListing

namespace Disk.Sound

variable {d : Disk.Sound} {c : Config} {loc : Location}

/-! ## Listing a directory -/

/-- What an entry is in a directory, if it stands there. -/
def childOf? (loc : Location) (x : Location × Entry) : Option (String × Entry) :=
  match x.1.getLast? with
  | some name => if x.1.dropLast = loc then some (name, x.2) else none
  | none => none

theorem childOf?_eq_some_iff {x : Location × Entry} {name : String} {e : Entry} :
    childOf? loc x = some (name, e) ↔ x = (loc ++ [name], e) := by
  obtain ⟨l, e'⟩ := x
  rcases List.eq_nil_or_concat' l with rfl | ⟨init, last, rfl⟩
  · simp [childOf?]
  · simp [childOf?, and_assoc]

/-- A directory lists what stands in it. -/
theorem mem_children {name : String} {e : Entry} :
    (name, e) ∈ d.children loc ↔ d.get? (loc ++ [name]) = some e := by
  have hchildren : d.children loc = d.entries.filterMap (childOf? loc) := rfl
  rw [d.get?_eq_some_iff (by simp), hchildren, List.mem_filterMap]
  simp [childOf?_eq_some_iff]

/-- A directory lists every name once. -/
theorem pairwise_children :
    (d.children loc).Pairwise fun x y => x.1 ≠ y.1 := by
  have hchildren : d.children loc = d.entries.filterMap (childOf? loc) := rfl
  have hdistinct : d.entries.Pairwise fun x y => x.1 ≠ y.1 :=
    List.pairwise_map.mp d.wellFormed.distinct
  rw [hchildren, List.pairwise_filterMap]
  refine hdistinct.imp ?_
  rintro x x' hne ⟨name, e⟩ hx ⟨name', e'⟩ hx' (rfl : name = name')
  rw [childOf?_eq_some_iff] at hx hx'
  exact hne (by rw [hx, hx'])

/-- The names of the files that count in a directory. -/
theorem mem_sourceNames {name : String} :
    name ∈ sourceNames d c loc ↔ c.considers name = true ∧
      ∃ content, d.get? (loc ++ [name]) = some (.file content) := by
  rw [sourceNames, List.mem_mergeSort, List.mem_filterMap]
  constructor
  · rintro ⟨⟨name', e⟩, hmem, hsome⟩
    cases e with
    | file content =>
      by_cases hname : c.considers name' = true
      · simp only [hname, if_true, Option.some.injEq] at hsome
        subst hsome
        exact ⟨hname, content, mem_children.mp hmem⟩
      · simp [hname] at hsome
    | _ => simp at hsome
  · rintro ⟨hname, content, hget⟩
    exact ⟨(name, .file content), mem_children.mpr hget, by simp [hname]⟩

/-- The names of the files that count are in order, each once. -/
theorem pairwise_sourceNames :
    (sourceNames d c loc).Pairwise (· < ·) := by
  have hnodup : (sourceNames d c loc).Nodup := by
    rw [sourceNames, (List.mergeSort_perm _ _).nodup_iff, List.Nodup, List.pairwise_filterMap]
    refine pairwise_children.imp ?_
    rintro ⟨x, e⟩ ⟨x', e'⟩ hne name hname name' hname' rfl
    cases e <;> cases e' <;> simp_all
  have hsorted : (sourceNames d c loc).Pairwise (· ≤ ·) := by
    rw [sourceNames]
    refine (List.pairwise_mergeSort ?_ ?_ _).imp (by simp)
    · simpa using fun a b c => le_trans
    · simpa using le_total
  exact (hsorted.and hnodup).imp fun hab => lt_of_le_of_ne hab.1 hab.2

/-- The directories below a location that are entered. -/
theorem mem_dirsBelow {dir : Location} :
    dir ∈ dirsBelow d c loc ↔
      dir ≠ [] ∧ (∀ name ∈ dir, c.isIgnored name = false) ∧ d.get? (loc ++ dir) = some .dir := by
  rw [dirsBelow, List.mem_filterMap]
  constructor
  · rintro ⟨⟨l, e⟩, hmem, hsome⟩
    cases e with
    | dir =>
      simp only [Option.ite_none_right_eq_some, Option.some.injEq, Bool.and_eq_true] at hsome
      obtain ⟨⟨⟨hstart, hne⟩, hkept⟩, rfl⟩ := hsome
      obtain ⟨names, rfl⟩ := List.isPrefixOf_iff_prefix.mp hstart
      rw [List.drop_left] at hne hkept ⊢
      have hne : names ≠ [] := by simpa using hne
      exact ⟨hne, by simpa using hkept, (d.get?_eq_some_iff (by simp [hne])).mpr hmem⟩
    | _ => simp at hsome
  · rintro ⟨hne, hkept, hget⟩
    have hmem := (d.get?_eq_some_iff (by simp [hne])).mp hget
    exact ⟨_, hmem, by simpa [hne] using hkept⟩

end Disk.Sound

/-! ## Loading a tree -/

theorem enterDir_eq_ok_iff {d : Disk} {root : String} {dir dir' : Location} :
    enterDir d root dir = .ok dir' ↔ dir' = dir ∧ (d.dirAt? (listedPath root dir)).isSome := by
  rw [enterDir, Disk.dirAt?, Disk.leadsTo?]
  cases d.openDir true (listedPath root dir) <;> simp [Except.toOption, eq_comm]

/-- The directories of a tree are listed if the path of each leads to one. -/
theorem listDirectories_eq_ok_iff {d : Disk} {c : Config} {root : String} {dirs : List Location} :
    listDirectories d c root = .ok dirs ↔
      dirs = sortedSet Location.before (directories d c root) ∧
        ∀ dir ∈ directories d c root, (d.dirAt? (listedPath root dir)).isSome := by
  rw [listDirectories]
  constructor
  · intro hdirs
    obtain ⟨ps, hfst, rfl, hps⟩ := mapM_eq_ok_iff.mp hdirs
    have hsame : ∀ p ∈ ps, p.2 = p.1 := fun p hp => (enterDir_eq_ok_iff.mp (hps p hp)).1
    refine ⟨?_, ?_⟩
    · rw [← hfst]
      exact List.map_congr_left hsame
    · intro dir hdir
      have hlisted : dir ∈ ps.map Prod.fst := hfst ▸ mem_sortedSet.mpr hdir
      obtain ⟨p, hp, rfl⟩ := List.mem_map.mp hlisted
      exact (enterDir_eq_ok_iff.mp (hps p hp)).2
  · rintro ⟨rfl, hopen⟩
    rw [mapM_eq_ok_map (g := id), List.map_id]
    intro dir hdir
    exact enterDir_eq_ok_iff.mpr ⟨rfl, hopen dir (mem_sortedSet.mp hdir)⟩

/-- What loading a file asks of the disk and of the text. -/
theorem loadFile_eq_ok_iff {d : Disk} {path : String} {f : File} :
    loadFile d path = .ok f ↔ ∃ loc content, d.locate true path = .ok (loc, .file content) ∧
      ∃ text, Disk.textOf content = .ok text ∧ File.parse path text = .ok f := by
  rw [loadFile, Disk.readText]
  rcases d.locate true path with fault | ⟨loc, _ | content | target⟩
  · simp [Except.mapError, bind, Except.bind]
  · simp [Except.mapError, bind, Except.bind]
  · cases htext : Disk.textOf content with
    | error fault => simp [htext, Except.mapError, bind, Except.bind]
    | ok text =>
      cases hparse : File.parse path text <;>
        simp [htext, hparse, Except.mapError, bind, Except.bind]
  · simp [Except.mapError, bind, Except.bind]

namespace IsTree

variable {d : Disk.Sound} {c : Config} {root : String} {dir : Location}

/-- The directories that are visited are those of the tree. -/
theorem mem_directories (ht : IsTree d c root) :
    dir ∈ directories d c root ↔ dir ∈ treeDirs d c root := by
  rw [directories]
  cases hroot : d.dirAt? root with
  | none => simp [treeDirs, hroot]
  | some loc =>
    have hloc := d.get?_of_dirAt? hroot
    have hplain := Disk.leadsTo?_eq_some_iff.mpr (ht.plain loc hroot)
    simp only [hplain, Option.isSome_some, if_true, List.mem_cons, Disk.Sound.mem_dirsBelow]
    by_cases hdir : dir = []
    · simp [hdir, treeDirs, hroot, hloc]
    · simp [hdir, treeDirs, hroot]

/-- All directories of a tree are listed. -/
theorem listDirectories_eq (ht : IsTree d c root) :
    listDirectories d c root = .ok (sortedSet Location.before (directories d c root)) := by
  refine listDirectories_eq_ok_iff.mpr ⟨rfl, ?_⟩
  intro dir hdir
  have hdir := ht.mem_directories.mp hdir
  by_cases hne : dir = []
  · obtain ⟨-, loc, hroot, -⟩ := hdir
    simp [listedPath, hne, hroot]
  · rw [listedPath, if_neg hne]
    exact ht.listable dir hdir hne

/-- Directories of a tree have names on the way to them. -/
theorem isName (hdir : dir ∈ treeDirs d c root) :
    ∀ name ∈ dir, Path.IsName name := by
  obtain ⟨-, loc, -, hget⟩ := hdir
  intro name hname
  exact d.isName hget name (by simp [hname])

/-- The path of a directory leads to it, if a slash fits behind the root's path. -/
theorem dirAt?_pathBelow (ht : IsTree d c root)
    (hnames : ∀ name ∈ dir, Path.IsName name) (hkept : ∀ name ∈ dir, c.isIgnored name = false)
    {l : Location} :
    d.dirAt? (pathBelow root dir) = some l ↔ Disk.checkPath (pathBelow root []) = .ok () ∧
      ∃ loc, d.dirAt? root = some loc ∧ l = loc ++ dir ∧ d.get? (loc ++ dir) = some .dir := by
  have hbelow := fun l => d.dirAt?_pathBelow_iff (l := l) ht.named
    (fun loc hloc => (ht.linkFree loc hloc).clear dir) hnames
  rw [hbelow]
  constructor
  · rintro ⟨hcheck, hloc⟩
    rw [Disk.pathBelow_eq_append ht.named hnames] at hcheck
    exact ⟨Disk.checkPath_of_append (Disk.pathBelow_ne_empty ht.named (by simp)) hcheck, hloc⟩
  · rintro ⟨hcheck, loc, hroot, hloc, hget⟩
    by_cases hdir : dir = []
    · exact ⟨hdir ▸ hcheck, loc, hroot, hloc, hget⟩
    · obtain ⟨l, hl⟩ :=
        Option.isSome_iff_exists.mp (ht.listable dir ⟨hkept, loc, hroot, hget⟩ hdir)
      exact ⟨((hbelow l).mp hl).1, loc, hroot, hloc, hget⟩

/-- A tree has one content at each place. -/
theorem oneContent_loaded : OneContent (loaded d c root) := by
  rintro ⟨dir, name, content⟩ ⟨⟨-, -, loc, hroot, hget⟩, -⟩ ⟨dir', name', content'⟩
    ⟨⟨-, -, loc', hroot', hget'⟩, -⟩ (rfl : dir = dir') (rfl : name = name')
  rw [hroot, Option.some.injEq] at hroot'
  subst hroot'
  rw [hget, Option.some.injEq, Entry.file.injEq] at hget'
  exact congrArg _ hget'

theorem dir_mem_treeDirs {s : SourceFile} (hs : s ∈ loaded d c root) :
    s.dir ∈ treeDirs d c root := by
  obtain ⟨⟨-, hkept, loc, hroot, hget⟩, -⟩ := hs
  exact ⟨hkept, loc, hroot, d.get?_of_append hget (by simp)⟩

/-- A directory of a tree that its path leads to, below the directory at the root. -/
structure Opens (d : Disk) (c : Config) (root : String) (dir loc : Location) : Prop where
  room : Disk.checkPath (pathBelow root []) = .ok ()
  names : ∀ name ∈ dir, Path.IsName name
  kept : ∀ name ∈ dir, c.isIgnored name = false
  atRoot : d.dirAt? root = some loc
  atPath : d.dirAt? (pathBelow root dir) = some (loc ++ dir)

/-- The directory of a source is opened. -/
theorem exists_opens (ht : IsTree d c root) {s : SourceFile}
    (hs : s ∈ loaded d c root) : ∃ loc, Opens d c root s.dir loc := by
  obtain ⟨hkept, loc, hroot, hget⟩ := dir_mem_treeDirs hs
  have hnames : ∀ name ∈ s.dir, Path.IsName name := isName ⟨hkept, loc, hroot, hget⟩
  exact ⟨loc, hs.2, hnames, hkept, hroot,
    (ht.dirAt?_pathBelow hnames hkept).mpr ⟨hs.2, loc, hroot, rfl, hget⟩⟩

namespace Opens

variable {loc : Location}

/-- A source in an open directory, by what stands there. -/
theorem mem_loaded_iff (ho : Opens d c root dir loc) {name : String} {content : Content} :
    ⟨dir, name, content⟩ ∈ loaded d c root ↔
      c.considers name = true ∧ d.get? (loc ++ dir ++ [name]) = some (.file content) := by
  constructor
  · rintro ⟨⟨hname, -, loc', hroot', hget⟩, -⟩
    rw [ho.atRoot, Option.some.injEq] at hroot'
    exact ⟨hname, hroot' ▸ hget⟩
  · rintro ⟨hname, hget⟩
    exact ⟨⟨hname, ho.kept, loc, ho.atRoot, hget⟩, ho.room⟩

/-- A file in an open directory is read through its path. -/
theorem loadFile_iff (ho : Opens d c root dir loc) (ht : IsTree d c root)
    {name : String} (hname : Path.IsName name) {f : File} :
    loadFile d (Path.join (pathBelow root dir) name) = .ok f ↔
      ∃ content, d.get? (loc ++ dir ++ [name]) = some (.file content) ∧
        SourceFile.ParsesTo root ⟨dir, name, content⟩ f := by
  have hlinks : ∀ l, d.dirAt? (pathBelow root dir) = some l → d.LinkFree l := by
    intro l hl
    rw [ho.atPath, Option.some.injEq] at hl
    exact hl ▸ (ht.linkFree loc ho.atRoot).append dir
  -- the file is one name below the directory's path
  have hpath : Path.join (pathBelow root dir) name = pathBelow (pathBelow root dir) [name] := by
    simp [pathBelow]
  have hone : ∀ x ∈ [name], Path.IsName x := by simpa using hname
  have hlocate := fun r => d.locate_pathBelow_iff (r := r)
    (Disk.pathBelow_ne_empty ht.named ho.names) (fun l hl => (hlinks l hl).clear [name]) hone
  rw [loadFile_eq_ok_iff]
  simp only [SourceFile.ParsesTo, SourceFile.path, hpath, hlocate, ho.atPath, Option.some.injEq,
    exists_eq_left']
  constructor
  · rintro ⟨_, content, ⟨hcheck, -, hget⟩, htext⟩
    exact ⟨content, hget, hcheck, htext⟩
  · rintro ⟨content, hget, hcheck, htext⟩
    exact ⟨_, content, ⟨hcheck, rfl, hget⟩, htext⟩

/-- Listing an open directory is listing the names in it that count and loading each. -/
theorem isListing_iff (ho : Opens d c root dir loc) (ht : IsTree d c root)
    {xs : List (String × File)} :
    IsListing (loaded d c root) root dir xs ↔
      xs.map Prod.fst = sourceNames d c (loc ++ dir) ∧
        ∀ x ∈ xs, loadFile d (Path.join (pathBelow root dir) x.1) = .ok x.2 := by
  have hisName : ∀ name content, d.get? (loc ++ dir ++ [name]) = some (.file content) →
      Path.IsName name := fun name content hget => d.isName hget name (by simp)
  constructor
  · intro hxs
    constructor
    · -- both lists of names are strictly increasing, so having the same members is enough
      apply hxs.sorted.eq_of_mem_iff Disk.Sound.pairwise_sourceNames
      intro name
      rw [Disk.Sound.mem_sourceNames]
      constructor
      · intro hname
        obtain ⟨x, hx, rfl⟩ := List.mem_map.mp hname
        obtain ⟨content, hs, -⟩ := hxs.sound x hx
        obtain ⟨hconsiders, hget⟩ := ho.mem_loaded_iff.mp hs
        exact ⟨hconsiders, content, hget⟩
      · rintro ⟨hconsiders, content, hget⟩
        exact hxs.complete _ (ho.mem_loaded_iff.mpr ⟨hconsiders, hget⟩) rfl
    · intro x hx
      obtain ⟨content, hs, hparses⟩ := hxs.sound x hx
      obtain ⟨-, hget⟩ := ho.mem_loaded_iff.mp hs
      exact (ho.loadFile_iff ht (hisName _ _ hget)).mpr ⟨content, hget, hparses⟩
  · rintro ⟨hfst, hxs⟩
    refine ⟨hfst ▸ Disk.Sound.pairwise_sourceNames, ?_, ?_⟩
    · intro x hx
      have hmem : x.1 ∈ sourceNames d c (loc ++ dir) := hfst ▸ List.mem_map_of_mem hx
      obtain ⟨hconsiders, content, hget⟩ := Disk.Sound.mem_sourceNames.mp hmem
      obtain ⟨content', hget', hparses⟩ :=
        (ho.loadFile_iff ht (hisName _ _ hget)).mp (hxs x hx)
      exact ⟨content', ho.mem_loaded_iff.mpr ⟨hconsiders, hget'⟩, hparses⟩
    · rintro s hs rfl
      obtain ⟨hconsiders, hget⟩ := ho.mem_loaded_iff.mp hs
      rw [hfst, Disk.Sound.mem_sourceNames]
      exact ⟨hconsiders, s.content, hget⟩

/-- An open directory can be listed if its sources parse. -/
theorem exists_isListing (ho : Opens d c root dir loc) (ht : IsTree d c root)
    (hall : ∀ s ∈ loaded d c root, s.dir = dir → ∃ f, s.ParsesTo root f) :
    ∃ xs, IsListing (loaded d c root) root dir xs := by
  have hload : ∀ name ∈ sourceNames d c (loc ++ dir),
      ∃ f, loadFile d (Path.join (pathBelow root dir) name) = .ok f := by
    intro name hname
    obtain ⟨hconsiders, content, hfile⟩ := Disk.Sound.mem_sourceNames.mp hname
    obtain ⟨f, hf⟩ := hall _ (ho.mem_loaded_iff.mpr ⟨hconsiders, hfile⟩) rfl
    have hisName := d.isName hfile name (by simp)
    exact ⟨f, (ho.loadFile_iff ht hisName).mpr ⟨content, hfile, hf⟩⟩
  obtain ⟨files, hfiles⟩ := exists_mapM_eq_ok_iff.mpr hload
  obtain ⟨xs, hfst, -, hxs⟩ := mapM_eq_ok_iff.mp hfiles
  exact ⟨xs, (ho.isListing_iff ht).mpr ⟨hfst, hxs⟩⟩

end Opens

/-- The packages of a directory come from its sources, in the order of their names. -/
theorem loadPackages_pathBelow_iff (ht : IsTree d c root)
    (hnames : ∀ name ∈ dir, Path.IsName name) (hkept : ∀ name ∈ dir, c.isIgnored name = false)
    {ps : List Package} :
    loadPackages d c (pathBelow root dir) = .ok ps ↔
      ∃ xs, IsListing (loaded d c root) root dir xs ∧ ps = groupPackages (xs.map Prod.snd) := by
  rw [loadPackages]
  cases hdir : d.dirAt? (pathBelow root dir) with
  | none =>
    -- the other tree may have this directory; here it has no sources
    have hnone : ∀ s ∈ loaded d c root, s.dir ≠ dir := by
      rintro s hs rfl
      obtain ⟨loc, ho⟩ := exists_opens ht hs
      rw [ho.atPath] at hdir
      cases hdir
    simp [IsListing.iff_eq_nil hnone, groupPackages, eq_comm]
  | some l =>
    obtain ⟨hroom, loc, hroot, rfl, -⟩ := (ht.dirAt?_pathBelow hnames hkept).mp hdir
    have ho : Opens d c root dir loc := ⟨hroom, hnames, hkept, hroot, hdir⟩
    simp only [ho.isListing_iff ht]
    constructor
    · intro hps
      obtain ⟨files, hfiles, hpackages⟩ := bind_eq_ok_iff.mp hps
      obtain ⟨xs, hfst, rfl, hxs⟩ := mapM_eq_ok_iff.mp hfiles
      cases hpackages
      exact ⟨xs, ⟨hfst, hxs⟩, rfl⟩
    · rintro ⟨xs, ⟨hfst, hxs⟩, rfl⟩
      exact bind_eq_ok_iff.mpr ⟨_, mapM_eq_ok_iff.mpr ⟨xs, hfst, rfl, hxs⟩, rfl⟩

/-- A directory can be listed if its sources parse. -/
theorem exists_isListing_iff (ht : IsTree d c root) :
    (∃ xs, IsListing (loaded d c root) root dir xs) ↔
      ∀ s ∈ loaded d c root, s.dir = dir → ∃ f, s.ParsesTo root f := by
  constructor
  · rintro ⟨xs, hxs⟩ s hs hdir
    obtain ⟨x, -, -, hparses⟩ := hxs.exists_parsesTo oneContent_loaded hs hdir
    exact ⟨x.2, hparses⟩
  · intro hall
    by_cases hsome : ∃ s ∈ loaded d c root, s.dir = dir
    · obtain ⟨s, hs, rfl⟩ := hsome
      obtain ⟨loc, ho⟩ := exists_opens ht hs
      exact ho.exists_isListing ht hall
    · have hnone : ∀ s ∈ loaded d c root, s.dir ≠ dir := fun s hs hdir => hsome ⟨s, hs, hdir⟩
      exact ⟨[], (IsListing.iff_eq_nil hnone).mpr rfl⟩

end IsTree

end GoSurface
