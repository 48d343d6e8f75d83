/-
# Links below a root

A link below a root is neither a file nor a directory of its tree.  So it makes no difference, with
one exception.  The directories of both trees are opened in both, by their paths, and opening
follows links.  A link that leads to a directory is followed if the other tree has a directory where
it stands.  Where this does not happen the links can be deleted.

* `Disk.unlink`, `withoutLinks`: deleting links;
* `detours`: the directories of one tree for which a link of the other is followed;
* `Steady`: a root that does not depend on the links;
* `compareTrees_withoutLinks`: without detours, links have no influence;
* `compareTrees_follows_link_to_directory`: a detour.
-/
import GoSurface.Proofs.DiskChanges
import GoSurface.Proofs.Trees

namespace GoSurface

/-! ## Deleting links -/

namespace Disk

/-- The disk without the links strictly below some locations. -/
def unlink (d : Disk) (locs : List Location) : Disk :=
  { d with entries := d.entries.filter fun x =>
      !(x.2.isLink && locs.any fun loc => loc.isPrefixOf x.1 && x.1 ≠ loc) }

variable {d : Disk} {locs : List Location} {loc l : Location} {e : Entry}

/-- A list made from the entries that are no links does not change. -/
theorem filterMap_unlink {α : Type} {f : Location × Entry → Option α}
    (hf : ∀ l target, f (l, .link target) = none) :
    (d.unlink locs).entries.filterMap f = d.entries.filterMap f := by
  rw [unlink, List.filterMap_filter]
  congr 1
  funext ⟨l, e⟩
  cases e with
  | link target => simp [hf]
  | _ => rfl

theorem mem_unlink : (l, e) ∈ (d.unlink locs).entries ↔ (l, e) ∈ d.entries ∧
    (e.isLink = true → ∀ loc ∈ locs, loc <+: l → l = loc) := by
  rw [unlink, List.mem_filter]
  refine and_congr_right fun _ => ?_
  cases e.isLink <;> simp

/-- A sound disk stays sound without some links. -/
theorem Sound.wellFormed_unlink (d : Sound) (locs : List Location) :
    (d.unlink locs).WellFormed := by
  have hdistinct : ((d.unlink locs).entries.map Prod.fst).Nodup :=
    d.wellFormed.distinct.sublist (List.filter_sublist.map Prod.fst)
  -- directories stay
  have hdirs : ∀ l, d.get? l = some .dir → (d.unlink locs).get? l = some .dir := by
    intro l hget
    by_cases hne : l = []
    · rw [hne, get?_nil]
    · have hmem : (l, Entry.dir) ∈ (d.unlink locs).entries :=
        mem_unlink.mpr ⟨(d.get?_eq_some_iff hne).mp hget, by simp [Entry.isLink]⟩
      rw [get?, if_neg hne, (find?_key_eq_some_iff hdistinct).mpr ⟨hmem, rfl⟩]
      rfl
  refine ⟨hdistinct, ?_, ?_⟩
  · rintro ⟨l, e⟩ hx
    exact d.wellFormed.named _ (mem_unlink.mp hx).1
  · rintro ⟨l, e⟩ hx
    obtain ⟨hne, habove⟩ := d.wellFormed.housed _ (mem_unlink.mp hx).1
    exact ⟨hne, hdirs _ habove⟩

/-- A sound disk without the links strictly below some locations. -/
def Sound.unlink (d : Sound) (locs : List Location) : Sound :=
  ⟨d.toDisk.unlink locs, d.wellFormed_unlink locs⟩

theorem Sound.toDisk_unlink (d : Sound) : (d.unlink locs).toDisk = d.toDisk.unlink locs := rfl

/-- What stands on a disk without some links stood there before and is none of them. -/
theorem Sound.get?_unlink (d : Sound) :
    (d.unlink locs).get? l = some e ↔ d.get? l = some e ∧
      (e.isLink = true → ∀ loc ∈ locs, loc <+: l → l = loc) := by
  by_cases hne : l = []
  · subst hne
    simp only [get?_nil, Option.some.injEq]
    constructor
    · rintro rfl
      exact ⟨rfl, by simp [Entry.isLink]⟩
    · exact fun hdir => hdir.1
  · rw [(d.unlink locs).get?_eq_some_iff hne, d.get?_eq_some_iff hne]
    exact mem_unlink

/-- Below the locations no links are left. -/
theorem Sound.clear_unlink (d : Sound) (hloc : loc ∈ locs)
    (hdir : d.get? loc = some .dir) (names : List String) : (d.unlink locs).Clear loc names := by
  intro start _ target hlink
  obtain ⟨hget, hat⟩ := d.get?_unlink.mp hlink
  have hstart : loc ++ start = loc := hat rfl loc hloc (List.prefix_append loc start)
  rw [hstart, hdir] at hget
  cases hget

end Disk

/-! ## Paths through a tree -/

section Below

variable {d : Disk} {root : String} {xs ys dir : List String}

/-- On the way to a directory below a root, paths lead to directories. -/
theorem isSome_dirAt?_of_append (hroot : root ≠ "") (hxs : xs ≠ [])
    (hnames : ∀ name ∈ xs ++ ys, Path.IsName name)
    (hdir : (d.dirAt? (pathBelow root (xs ++ ys))).isSome) :
    (d.dirAt? (pathBelow root xs)).isSome := by
  by_cases hys : ys = []
  · simpa [hys] using hdir
  have hleft : ∀ name ∈ xs, Path.IsName name := fun name hname => hnames name (by simp [hname])
  have hright : ∀ name ∈ ys, Path.IsName name := fun name hname => hnames name (by simp [hname])
  have hne := Disk.pathBelow_ne_empty hroot hleft
  have hpath : pathBelow root (xs ++ ys) = pathBelow root xs ++ "/" ++ "/".intercalate ys := by
    rw [Disk.pathBelow_eq_append hroot hnames, String.intercalate_append_of_ne_nil hxs hys,
      Disk.pathBelow_eq_append hroot hleft]
    simp [String.append_assoc]
  obtain ⟨l, hl⟩ := Option.isSome_iff_exists.mp hdir
  obtain ⟨hcheck, hstart, hwalk⟩ := Disk.locate_eq_ok_iff.mp (Disk.dirAt?_eq_some_iff.mp hl)
  rw [hpath, Path.components_append, Path.components_intercalate hys hright] at hwalk
  obtain ⟨mid, hmid, -⟩ := Disk.exists_of_walkFrom_append hys hwalk
  rw [hpath, String.append_assoc] at hcheck
  rw [hpath] at hstart
  have hbase : d.base (pathBelow root xs ++ "/" ++ "/".intercalate ys) =
      d.base (pathBelow root xs) := by
    rw [String.append_assoc, Disk.base, Disk.base, Path.isAbsolute_append hne]
  have hfound : d.dirAt? (pathBelow root xs) = some mid := by
    rw [Disk.dirAt?_eq_some_iff, Disk.locate_eq_ok_iff]
    exact ⟨Disk.checkPath_of_append hne hcheck, hbase ▸ hstart, hbase ▸ hmid⟩
  rw [hfound]
  rfl

end Below

/-! ## Detours -/

/-- The directories of another tree where this one has a link that leads to a directory. -/
def detours (d : Disk) (c : Config) (root other : String) : List Location :=
  (directories d c other).filter fun dir =>
    (d.dirAt? root).any (fun loc => (d.get? (loc ++ dir)).any Entry.isLink) &&
      (d.dirAt? (pathBelow root dir)).isSome

/-- The disk without the links strictly below two roots. -/
def withoutLinks (d : Disk.Sound) (previous latest : String) : Disk.Sound :=
  d.unlink ([previous, latest].filterMap d.dirAt?)

section Detours

variable {d : Disk.Sound} {c : Config} {root other previous latest : String} {dir : Location}

/-- The directories that are visited are those of the tree, but for the root itself. -/
theorem mem_directories_iff (hne : dir ≠ []) :
    dir ∈ directories d c root ↔ dir ∈ treeDirs d c root := by
  rw [directories]
  cases hroot : d.dirAt? root with
  | none => simp [treeDirs, hroot]
  | some loc =>
    have hbelow : dir ∈ dirsBelow d c loc ↔ dir ∈ treeDirs d c root := by
      simp [Disk.Sound.mem_dirsBelow, treeDirs, hroot, hne]
    cases (d.leadsTo? false root).isSome <;> simp [hne, hbelow]

theorem exists_dirAt?_of_mem_directories {d : Disk} (hdir : dir ∈ directories d c root) :
    ∃ loc, d.dirAt? root = some loc := by
  rw [directories] at hdir
  cases hroot : d.dirAt? root with
  | none => simp [hroot] at hdir
  | some loc => exact ⟨loc, rfl⟩

theorem isName_of_mem_directories (hdir : dir ∈ directories d c root) :
    ∀ name ∈ dir, Path.IsName name := by
  by_cases hne : dir = []
  · simp [hne]
  · exact IsTree.isName ((mem_directories_iff hne).mp hdir)

/-- On the way to a directory of a tree there are directories of it. -/
theorem mem_directories_of_above (hdir : dir ∈ directories d c root)
    {start : List String} (hstart : start <+: dir) (hne : start ≠ []) :
    start ∈ directories d c root := by
  obtain ⟨rest, rfl⟩ := hstart
  obtain ⟨hkept, loc, hroot, hget⟩ := (mem_directories_iff (by simp [hne])).mp hdir
  refine (mem_directories_iff hne).mpr ⟨fun name hname => hkept name (by simp [hname]), loc,
    hroot, ?_⟩
  by_cases hrest : rest = []
  · simpa [hrest] using hget
  · rw [← List.append_assoc] at hget
    exact d.get?_of_append hget hrest

/-- The way to a tree's own directories has no links. -/
theorem clear_of_mem_directories {loc : Location} (hroot : d.dirAt? root = some loc)
    (hdir : dir ∈ directories d c root) : d.Clear loc dir := by
  intro start hstart target hlink
  by_cases hne : start = []
  · rw [hne, List.append_nil, d.get?_of_dirAt? hroot] at hlink
    cases hlink
  · obtain ⟨-, loc', hroot', hget⟩ :=
      (mem_directories_iff hne).mp (mem_directories_of_above hdir hstart hne)
    obtain rfl := Option.some.inj (hroot.symm.trans hroot')
    rw [hlink] at hget
    cases hget

/-- A way is blocked for a directory: a link on it leads to no directory. -/
def Blocked (d : Disk) (root : String) (loc dir : Location) : Prop :=
  ∃ start, start <+: dir ∧ (∃ target, d.get? (loc ++ start) = some (.link target)) ∧
    d.dirAt? (pathBelow root start) = none

/-- Without detours, the way to a directory of either tree has no links, or is blocked. -/
theorem clear_or_blocked (hdetours : detours d c root other = [])
    {loc : Location} (hroot : d.dirAt? root = some loc)
    (hdir : dir ∈ directories d c root ∨ dir ∈ directories d c other) :
    d.Clear loc dir ∨ Blocked d root loc dir := by
  rcases hdir with hdir | hdir
  · exact Or.inl (clear_of_mem_directories hroot hdir)
  by_cases hclear : d.Clear loc dir
  · exact Or.inl hclear
  right
  simp only [Disk.Clear, not_forall, not_not] at hclear
  obtain ⟨start, hstart, target, hlink⟩ := hclear
  refine ⟨start, hstart, ⟨target, hlink⟩, ?_⟩
  have hne : start ≠ [] := by
    rintro rfl
    rw [List.append_nil, d.get?_of_dirAt? hroot] at hlink
    cases hlink
  have hmem := mem_directories_of_above hdir hstart hne
  have hnot := List.filter_eq_nil_iff.mp hdetours start hmem
  simpa [hroot, hlink, Entry.isLink] using hnot

/-- Nothing is opened through a blocked way. -/
theorem Blocked.dirAt?_eq_none {loc : Location} (hblocked : Blocked d root loc dir)
    (hroot : root ≠ "") (hloc : d.get? loc = some .dir)
    (hnames : ∀ name ∈ dir, Path.IsName name) : d.dirAt? (pathBelow root dir) = none := by
  obtain ⟨start, ⟨rest, rfl⟩, ⟨target, hlink⟩, hnone⟩ := hblocked
  have hne : start ≠ [] := by
    rintro rfl
    rw [List.append_nil, hloc] at hlink
    cases hlink
  by_contra hsome
  have hstart := isSome_dirAt?_of_append hroot hne hnames (Option.isSome_iff_ne_none.mpr hsome)
  simp [hnone] at hstart

/-- Nothing but the link stands at a link or below it. -/
theorem Blocked.get?_ne_dir {loc : Location} (hblocked : Blocked d root loc dir) :
    d.get? (loc ++ dir) ≠ some .dir := by
  obtain ⟨start, ⟨rest, rfl⟩, ⟨target, hlink⟩, -⟩ := hblocked
  intro hget
  rw [← List.append_assoc] at hget
  by_cases hrest : rest = []
  · rw [hrest, List.append_nil, hlink] at hget
    cases hget
  · have hdir := d.get?_of_append hget hrest
    rw [hlink] at hdir
    cases hdir

/-! ## Trees without their links -/

/-- A root that leads to the same directory without the links below two roots. -/
def Steady (d : Disk.Sound) (previous latest root : String) : Prop :=
  ∀ follow, (withoutLinks d previous latest).leadsTo? follow root = d.leadsTo? follow root

instance : Decidable (Steady d previous latest root) :=
  inferInstanceAs (Decidable (∀ follow,
    (withoutLinks d previous latest).leadsTo? follow root = d.leadsTo? follow root))

theorem Steady.dirAt? (hroot : Steady d previous latest root) :
    (withoutLinks d previous latest).dirAt? root = d.dirAt? root :=
  hroot true

theorem get?_withoutLinks_eq_dir_iff {l : Location} :
    (withoutLinks d previous latest).get? l = some .dir ↔ d.get? l = some .dir := by
  rw [withoutLinks, d.get?_unlink]
  simp [Entry.isLink]

/-- Below the roots every way is clear. -/
theorem Steady.clear_withoutLinks (hsteady : Steady d previous latest root)
    (hroot : root ∈ [previous, latest]) {loc : Location}
    (hloc : (withoutLinks d previous latest).dirAt? root = some loc) (dir : Location) :
    (withoutLinks d previous latest).Clear loc dir := by
  rw [hsteady.dirAt?] at hloc
  exact d.clear_unlink (List.mem_filterMap.mpr ⟨root, hroot, hloc⟩) (d.get?_of_dirAt? hloc) dir

/-- The directories of a tree are the same without the links. -/
theorem directories_withoutLinks (hroot : Steady d previous latest root) :
    directories (withoutLinks d previous latest) c root = directories d c root := by
  have hbelow : ∀ loc, dirsBelow (withoutLinks d previous latest) c loc = dirsBelow d c loc :=
    fun loc => Disk.filterMap_unlink fun _ _ => rfl
  rw [directories, directories, hroot.dirAt?, hroot false]
  simp only [hbelow]

/-- The files that count in a directory are the same without the links. -/
theorem sourceNames_withoutLinks (loc : Location) :
    sourceNames (withoutLinks d previous latest) c loc = sourceNames d c loc := by
  unfold sourceNames Disk.children
  rw [List.filterMap_filterMap, List.filterMap_filterMap, withoutLinks, Disk.Sound.toDisk_unlink,
    Disk.filterMap_unlink]
  intro l target
  rcases hlast : l.getLast? with _ | name
  · simp [hlast]
  · by_cases hl : l.dropLast = loc <;> simp [hlast, hl]

/-- Without detours, opening a directory of either tree is the same without the links. -/
theorem dirAt?_withoutLinks (hroot : root ∈ [previous, latest])
    (hnamed : root ≠ "") (hsteady : Steady d previous latest root)
    (hdetours : detours d c root other = [])
    (hdir : dir ∈ directories d c root ∨ dir ∈ directories d c other) :
    (withoutLinks d previous latest).dirAt? (pathBelow root dir) =
      d.dirAt? (pathBelow root dir) := by
  have hnames : ∀ name ∈ dir, Path.IsName name :=
    hdir.elim isName_of_mem_directories isName_of_mem_directories
  apply Option.ext
  intro l
  rw [(withoutLinks d previous latest).dirAt?_pathBelow_iff hnamed
    (fun loc hloc => hsteady.clear_withoutLinks hroot hloc dir) hnames, hsteady.dirAt?]
  by_cases hway : ∀ loc, d.dirAt? root = some loc → d.Clear loc dir
  · rw [d.dirAt?_pathBelow_iff hnamed hway hnames]
    simp only [get?_withoutLinks_eq_dir_iff]
  · simp only [not_forall] at hway
    obtain ⟨loc, hloc, hlinks⟩ := hway
    have hblocked := (clear_or_blocked hdetours hloc hdir).resolve_left hlinks
    have hnone := hblocked.dirAt?_eq_none hnamed (d.get?_of_dirAt? hloc) hnames
    simp [hnone, hloc, get?_withoutLinks_eq_dir_iff, hblocked.get?_ne_dir]

/-- A file that counts is read through its path as it is without the links. -/
theorem loadFile_withoutLinks {path name : String} {loc : Location}
    (hdir : d.dirAt? path = some loc)
    (hdir' : (withoutLinks d previous latest).dirAt? path = some loc)
    (hname : name ∈ sourceNames d c loc) :
    loadFile (withoutLinks d previous latest) (Path.join path name) =
      loadFile d (Path.join path name) := by
  obtain ⟨-, content, hget⟩ := Disk.Sound.mem_sourceNames.mp hname
  have hisName : Path.IsName name := d.isName hget name (by simp)
  have hget' : (withoutLinks d previous latest).get? (loc ++ [name]) = some (.file content) :=
    d.get?_unlink.mpr ⟨hget, by simp [Entry.isLink]⟩
  have hlocate : (withoutLinks d previous latest).locate true (Path.join path name) =
      d.locate true (Path.join path name) := by
    cases hcheck : Disk.checkPath (Path.join path name) with
    | error fault => simp [Disk.locate, hcheck, bind, Except.bind]
    | ok _ => rw [Disk.locate_join_file hdir hisName hcheck hget,
        Disk.locate_join_file hdir' hisName hcheck hget']
  rw [loadFile, loadFile, Disk.readText, Disk.readText, hlocate]

/-- Without detours, the packages of a directory of either tree are the same without the links. -/
theorem loadPackages_withoutLinks (hroot : root ∈ [previous, latest])
    (hnamed : root ≠ "") (hsteady : Steady d previous latest root)
    (hdetours : detours d c root other = [])
    (hdir : dir ∈ directories d c root ∨ dir ∈ directories d c other) :
    loadPackages (withoutLinks d previous latest) c (pathBelow root dir) =
      loadPackages d c (pathBelow root dir) := by
  have hopen := dirAt?_withoutLinks hroot hnamed hsteady hdetours hdir
  rw [loadPackages, loadPackages, hopen]
  cases hloc : d.dirAt? (pathBelow root dir) with
  | none => rfl
  | some loc =>
    have hfiles : ∀ name ∈ sourceNames d c loc,
        loadFile (withoutLinks d previous latest) (Path.join (pathBelow root dir) name) =
          loadFile d (Path.join (pathBelow root dir) name) :=
      fun name => loadFile_withoutLinks hloc (hopen.trans hloc)
    simp only [sourceNames_withoutLinks, mapM_congr hfiles]

/-- A tree's own directories are entered in the same way without the links. -/
theorem enterDir_withoutLinks (hroot : root ∈ [previous, latest]) (hnamed : root ≠ "")
    (hsteady : Steady d previous latest root) (hdir : dir ∈ directories d c root) :
    enterDir (withoutLinks d previous latest) root dir = enterDir d root dir := by
  obtain ⟨loc, hloc⟩ := exists_dirAt?_of_mem_directories hdir
  have hloc' : (withoutLinks d previous latest).dirAt? root = some loc := hsteady.dirAt?.trans hloc
  have hopen : (withoutLinks d previous latest).openDir true (listedPath root dir) =
      d.openDir true (listedPath root dir) := by
    by_cases hne : dir = []
    · rw [listedPath, if_pos hne, Disk.openDir_eq_ok_iff.mpr (Disk.dirAt?_eq_some_iff.mp hloc),
        Disk.openDir_eq_ok_iff.mpr (Disk.dirAt?_eq_some_iff.mp hloc')]
    · -- the way is clear on both disks, so only the length of the path counts
      obtain ⟨-, l, hl, hget⟩ := (mem_directories_iff hne).mp hdir
      obtain rfl := Option.some.inj (hloc.symm.trans hl)
      have hnames := isName_of_mem_directories hdir
      rw [listedPath, if_neg hne,
        d.openDir_pathBelow hnamed (fun l hl => clear_of_mem_directories hl hdir) hnames hloc hget,
        (withoutLinks d previous latest).openDir_pathBelow hnamed
          (fun l hl => hsteady.clear_withoutLinks hroot hl dir) hnames hloc'
          (get?_withoutLinks_eq_dir_iff.mpr hget)]
  rw [enterDir, enterDir, hopen]

/-- The directories of a tree are listed, or cannot be, in the same way without the links. -/
theorem listDirectories_withoutLinks (hroot : root ∈ [previous, latest]) (hnamed : root ≠ "")
    (hsteady : Steady d previous latest root) :
    listDirectories (withoutLinks d previous latest) c root = listDirectories d c root := by
  rw [listDirectories, listDirectories, directories_withoutLinks hsteady]
  exact mapM_congr fun dir hdir =>
    enterDir_withoutLinks hroot hnamed hsteady (mem_sortedSet.mp hdir)

end Detours

/-- Links below two roots have no influence on the comparison of the trees if the roots lead to the
same places without them, and no link leads to a directory where the other tree has one. -/
theorem compareTrees_withoutLinks (d : Disk.Sound) (c : Config) (previous latest : String)
    (hp : previous ≠ "") (hl : latest ≠ "")
    (hsteady : Steady d previous latest previous ∧ Steady d previous latest latest)
    (hdetours : detours d c previous latest = [] ∧ detours d c latest previous = []) :
    compareTrees (withoutLinks d previous latest) c previous latest =
      compareTrees d c previous latest := by
  have hvisited : visitedDirs (withoutLinks d previous latest) c previous latest =
      visitedDirs d c previous latest := by
    rw [visitedDirs, visitedDirs, directories_withoutLinks hsteady.1,
      directories_withoutLinks hsteady.2]
  have hdirs : ∀ dir ∈ visitedDirs d c previous latest,
      compareDirs (withoutLinks d previous latest) c (pathBelow previous dir)
        (pathBelow latest dir) =
          compareDirs d c (pathBelow previous dir) (pathBelow latest dir) := by
    intro dir hdir
    rw [visitedDirs, mem_sortedSet, List.mem_append] at hdir
    rw [compareDirs, compareDirs,
      loadPackages_withoutLinks (by simp) hp hsteady.1 hdetours.1 hdir,
      loadPackages_withoutLinks (by simp) hl hsteady.2 hdetours.2 hdir.symm]
  rw [compareTrees_eq, compareTrees_eq, hvisited, mapM_congr hdirs,
    listDirectories_withoutLinks (by simp) hp hsteady.1,
    listDirectories_withoutLinks (by simp) hl hsteady.2]

/-- A link to a directory that the other tree does not have, a link to a file, and a link that leads
nowhere, beside a directory of the other tree. -/
def linksWithoutDetour : List (Location × Entry) :=
  [(["latest", "vendor"], .link "../previous"),
    (["previous", "more.go"], .link "../latest/fruit.go"),
    (["previous", "tools"], .link "nowhere")]

/-- Two revisions with such links. -/
def revisionsWithLinks : Disk.Sound where
  entries := sideBySide ++ linksWithoutDetour
  wellFormed := by decide +kernel

/-- Two revisions with such links have the same changes as without them. -/
theorem compareTrees_withoutLinks_revisions :
    detours revisionsWithLinks {} "previous" "latest" = [] ∧
      detours revisionsWithLinks {} "latest" "previous" = [] ∧
      compareTrees revisionsWithLinks {} "previous" "latest" = .ok sideBySideDiff ∧
      compareTrees (withoutLinks revisionsWithLinks "previous" "latest") {} "previous" "latest" =
        .ok sideBySideDiff := by
  have hdetours : detours revisionsWithLinks {} "previous" "latest" = [] ∧
      detours revisionsWithLinks {} "latest" "previous" = [] := by decide +kernel
  have hdiff : compareTrees revisionsWithLinks {} "previous" "latest" = .ok sideBySideDiff := by
    decide +kernel
  have hsame := compareTrees_withoutLinks revisionsWithLinks {} "previous" "latest"
    (by decide) (by decide) (by decide +kernel) hdetours
  exact ⟨hdetours.1, hdetours.2, hdiff, hsame.trans hdiff⟩

/-- A directory of one tree, and a link to a directory in its place in the other. -/
def linkForDirectory : Disk.Sound where
  entries :=
    [(["previous"], .dir), (["previous", "sub"], .dir),
      (["previous", "sub", "x.go"], .file (.ok "package x\n\nfunc Old() {}\n".toUTF8)),
      (["vendor"], .dir), (["vendor", "x.go"], .file (.ok "package x\n\nfunc New() {}\n".toUTF8)),
      (["latest"], .dir), (["latest", "sub"], .link "../vendor")]
  wellFormed := by decide +kernel

/-- The link is followed: what it leads to is compared with the directory, although it is in neither
tree.  Without the link the directory is gone. -/
theorem compareTrees_follows_link_to_directory :
    Steady linkForDirectory "previous" "latest" "previous" ∧
      Steady linkForDirectory "previous" "latest" "latest" ∧
      detours linkForDirectory {} "latest" "previous" = [["sub"]] ∧
      compareTrees linkForDirectory {} "previous" "latest" =
        .ok [.removed .major .functionRemoved ⟨"Old", ⟨"previous/sub/x.go", 3, 1⟩, "func Old()"⟩,
          .added .minor .functionAdded ⟨"New", ⟨"latest/sub/x.go", 3, 1⟩, "func New()"⟩] ∧
      compareTrees (withoutLinks linkForDirectory "previous" "latest") {} "previous" "latest" =
        .ok [.removed .major .packageRemoved ⟨"x", ⟨"previous/sub/x.go", 1, 1⟩, "package x"⟩,
          .removed .major .functionRemoved ⟨"Old", ⟨"previous/sub/x.go", 3, 1⟩, "func Old()"⟩] := by
  decide +kernel

end GoSurface
