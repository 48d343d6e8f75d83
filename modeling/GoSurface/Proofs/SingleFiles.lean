/-
# Trees of a single file

Two revisions of a single file can be compared as texts under the paths of the files, or as the
directories that hold them.  Both ways compare the same packages.  They differ in the order of the
report if the package clauses differ, and if both directories are given by links: then no directory
is visited.

* `HoldsOnly`: a directory with a single file in it;
* `HoldsOnly.directories_eq`, `HoldsOnly.loadPackages_eq`: what is visited and what is loaded;
* `compareLoaded_single`: two files, compared by their clauses;
* `compareTrees_single`, `compareTrees_of_single_files`: what is reported for two directories.
-/
import GoSurface.Compare.Sources
import GoSurface.Proofs.Links

namespace GoSurface

/-! ## Against nothing -/

section Pairs

variable {α κ : Type} [DecidableEq κ] {key : α → κ} {x : Pair α}

/-- Everything is removed if there is nothing to pair it with. -/
theorem exists_removed_of_mem {ps : List α} (h : x ∈ pairByKey key ps []) :
    ∃ a, x = .removed a := by
  rw [pairByKey, pairsOfLatest, List.append_nil] at h
  obtain ⟨a, -, rfl | ⟨l, hl, -⟩⟩ := mem_pairsOfPrevious h
  · exact ⟨a, rfl⟩
  · cases hl

theorem exists_added_of_mem {ls : List α} (h : x ∈ pairByKey key [] ls) : ∃ a, x = .added a := by
  obtain ⟨a, -, rfl⟩ := mem_pairsOfLatest h
  exact ⟨a, rfl⟩

end Pairs

/-- If there is no later package, everything that is reported is a removal. -/
theorem latest_eq_none_of_mem {p : Package} {c : Change} (h : c ∈ comparePackages (some p) none) :
    c.latest = none := by
  simp only [comparePackages, List.mem_append] at h
  rcases h with ((h | h) | h) | h
  · obtain rfl := List.mem_singleton.mp h
    rfl
  · obtain ⟨x, hx, hc⟩ := List.mem_filterMap.mp h
    obtain ⟨v, rfl⟩ := exists_removed_of_mem hx
    obtain rfl := Option.some.inj hc
    rfl
  · -- The removal of a method that could not be reached is not reported.
    obtain ⟨x, hx, hc⟩ := List.mem_filterMap.mp h
    obtain ⟨f, rfl⟩ := exists_removed_of_mem hx
    rw [funcChange] at hc
    split at hc
    · cases hc
    · obtain rfl := Option.some.inj hc
      rfl
  · obtain ⟨x, hx, hc⟩ := List.mem_filterMap.mp h
    obtain ⟨t, rfl⟩ := exists_removed_of_mem hx
    obtain rfl := Option.some.inj hc
    rfl

/-- If there is no earlier package, everything that is reported is an addition. -/
theorem previous_eq_none_of_mem {l : Package} {c : Change}
    (h : c ∈ comparePackages none (some l)) : c.previous = none := by
  simp only [comparePackages, List.mem_append] at h
  rcases h with ((h | h) | h) | h
  · obtain rfl := List.mem_singleton.mp h
    rfl
  all_goals
    obtain ⟨x, hx, hc⟩ := List.mem_filterMap.mp h
    obtain ⟨a, rfl⟩ := exists_added_of_mem hx
    obtain rfl := Option.some.inj hc
    rfl

/-! ## Two files -/

theorem packageOf_single (clause : String) (f : File) :
    packageOf clause [f] =
      if f.package = clause then some (Package.mk f.package [f]).resolve else none := by
  by_cases h : f.package = clause <;> simp [packageOf, h]

/-- Two files are compared by their clauses: as one package if the clauses agree, and otherwise as
two packages in the order of their names. -/
theorem compareLoaded_single (f g : File) :
    compareLoaded (groupPackages [f]) (groupPackages [g]) =
      let p := (Package.mk f.package [f]).resolve
      let l := (Package.mk g.package [g]).resolve
      if f.package = g.package then comparePackages (some p) (some l)
      else if f.package < g.package then
        comparePackages (some p) none ++ comparePackages none (some l)
      else comparePackages none (some l) ++ comparePackages (some p) none := by
  have hclauses : clausesOf [f] [g] =
      if f.package = g.package then [g.package]
      else if f.package < g.package then [f.package, g.package]
      else [g.package, f.package] := by
    simp [clausesOf, sortedSet, insertSorted]
  rw [compareLoaded_groupPackages, hclauses]
  by_cases hsame : f.package = g.package
  · simp [hsame, packageOf_single]
  · have hback : ¬ g.package = f.package := fun h => hsame h.symm
    by_cases hlt : f.package < g.package <;> simp [hsame, hback, hlt, packageOf_single]

/-- A package of one file is parsed from the file. -/
theorem Package.exists_file_of_parse {file source : String} {p : Package}
    (h : Package.parse file source = .ok p) :
    ∃ f, File.parse file source = .ok f ∧ p = (Package.mk f.package [f]).resolve := by
  rw [Package.parse, bind_eq_ok_iff] at h
  obtain ⟨f, hf, hp⟩ := h
  exact ⟨f, hf, (Except.ok.inj hp).symm⟩

/-- A removed package and an added one are a major change, in either order. -/
theorem severity_replacement (p l : Package) :
    Diff.severity (comparePackages (some p) none ++ comparePackages none (some l)) = .major ∧
      Diff.severity (comparePackages none (some l) ++ comparePackages (some p) none) = .major := by
  rw [Diff.severity_append, Diff.severity_append, severity_comparePackages_none,
    severity_comparePackages_of_none]
  decide

/-! ## A directory with a single file -/

/-- A path that ends with a slash is joined like the path without it. -/
theorem Path.join_pathBelow_nil {root : String} (hroot : root ≠ "") (name : String) :
    Path.join (pathBelow root []) name = Path.join root name := by
  obtain ⟨stem, -, hjoin⟩ := Path.join_eq hroot
  have hbelow : pathBelow root [] = stem ++ "/" := by
    simpa [pathBelow] using hjoin "" rfl
  by_cases habs : Path.isAbsolute name = true
  · simp [Path.join, habs]
  · rw [Bool.not_eq_true] at habs
    have hopen : Path.endsOpen (stem ++ "/") = true := by simp [Path.endsOpen]
    rw [hjoin name habs, hbelow, Path.join, habs, hopen]
    simp

/-- A path that a file can be read through leads to the same directory with a slash behind it. -/
theorem Disk.Sound.dirAt?_pathBelow_nil (d : Disk.Sound) {loc : Location}
    {root name source : String} (hloc : d.dirAt? root = some loc) (hname : Path.IsName name)
    (hread : d.readText (Path.join root name) = .ok source) :
    d.dirAt? (pathBelow root []) = some loc := by
  have hroot := Disk.ne_empty_of_dirAt? hloc
  -- The slash must not make the path too long: the longer path of the file is not.
  have hcheck : Disk.checkPath (pathBelow root []) = .ok () := by
    have hnames : ∀ x ∈ [name], Path.IsName x := by simpa using hname
    have hpath : Path.join root name = pathBelow root [] ++ name := by
      simpa [pathBelow] using Disk.pathBelow_eq_append hroot hnames
    rw [hpath, Disk.readText] at hread
    cases hlocate : d.locate true (pathBelow root [] ++ name) with
    | error fault => simp [hlocate] at hread
    | ok r =>
      exact Disk.checkPath_of_append (Disk.pathBelow_ne_empty hroot (by simp))
        (Disk.locate_eq_ok_iff.mp hlocate).1
  have hclear : ∀ loc', d.dirAt? root = some loc' → d.Clear loc' [] := by
    intro loc' hloc' start hstart target
    obtain rfl := List.prefix_nil.mp hstart
    rw [List.append_nil, d.get?_of_dirAt? hloc']
    simp
  exact (d.dirAt?_pathBelow_iff hroot hclear (by simp)).mpr
    ⟨hcheck, loc, hloc, by simp, by simpa using d.get?_of_dirAt? hloc⟩

/-- The directory that a path leads to has nothing in it but a file of this name, and the text of
the file can be read through the path. -/
def HoldsOnly (d : Disk) (root name source : String) : Prop :=
  ∃ loc content, d.dirAt? root = some loc ∧
    (∀ names e, names ≠ [] →
      (d.get? (loc ++ names) = some e ↔ names = [name] ∧ e = .file content)) ∧
    d.readText (Path.join root name) = .ok source

namespace HoldsOnly

variable {d : Disk.Sound} {root name source : String}

/-- That a directory holds a single file can be read off the entries. -/
theorem of_entries (loc : Location) (content : Content)
    (hloc : d.dirAt? root = some loc)
    (honly : d.entries.filter (fun x => loc.isPrefixOf x.1 && x.1 ≠ loc) =
      [(loc ++ [name], .file content)])
    (hread : d.readText (Path.join root name) = .ok source) : HoldsOnly d root name source := by
  refine ⟨loc, content, hloc, ?_, hread⟩
  intro names e hne
  have hentry : (loc ++ names, e) ∈ d.entries ↔
      (loc ++ names, e) = (loc ++ [name], .file content) := by
    rw [← List.mem_singleton, ← honly, List.mem_filter]
    simp [hne]
  rw [d.get?_eq_some_iff (by simp [hne]), hentry, Prod.mk.injEq, List.append_cancel_left_eq]

/-- The directory itself is visited, unless it is given by a link. -/
theorem directories_eq (hd : HoldsOnly d root name source) (c : Config) :
    directories d c root = if (d.leadsTo? false root).isSome then [[]] else [] := by
  obtain ⟨loc, content, hloc, honly, -⟩ := hd
  have hbelow : dirsBelow d c loc = [] := by
    rw [List.eq_nil_iff_forall_not_mem]
    intro dir hdir
    obtain ⟨hne, -, hget⟩ := Disk.Sound.mem_dirsBelow.mp hdir
    obtain ⟨-, hfile⟩ := (honly dir .dir hne).mp hget
    cases hfile
  simp only [directories, hloc, hbelow]

/-- The directory can be listed. -/
theorem listDirectories_eq (hd : HoldsOnly d root name source) (c : Config) :
    listDirectories d c root = .ok (sortedSet Location.before (directories d c root)) := by
  refine listDirectories_eq_ok_iff.mpr ⟨rfl, ?_⟩
  intro dir hdir
  have hempty : dir = [] := by
    rw [hd.directories_eq c] at hdir
    split at hdir
    · exact List.mem_singleton.mp hdir
    · cases hdir
  obtain ⟨loc, -, hloc, -⟩ := hd
  simp [listedPath, hempty, hloc]

/-- What is loaded from the directory is the file. -/
theorem loadPackages_eq (hd : HoldsOnly d root name source) {c : Config}
    (hname : c.considers name = true) {f : File}
    (hf : File.parse (Path.join root name) source = .ok f) :
    loadPackages d c (pathBelow root []) = .ok (groupPackages [f]) := by
  obtain ⟨loc, content, hloc, honly, hread⟩ := hd
  have hget : d.get? (loc ++ [name]) = some (.file content) :=
    (honly [name] _ (by simp)).mpr ⟨rfl, rfl⟩
  have hdir : d.dirAt? (pathBelow root []) = some loc :=
    d.dirAt?_pathBelow_nil hloc (d.isName hget name (by simp)) hread
  have hnames : sourceNames d c loc = [name] := by
    refine eq_of_pairwise_of_mem_iff (fun a b => lt_asymm) Disk.Sound.pairwise_sourceNames
      (List.pairwise_singleton _ _) fun x => ?_
    rw [Disk.Sound.mem_sourceNames, List.mem_singleton]
    constructor
    · rintro ⟨-, content', hget'⟩
      simpa using ((honly [x] _ (by simp)).mp hget').1
    · rintro rfl
      exact ⟨hname, content, hget⟩
  have hload : loadFile d (Path.join (pathBelow root []) name) = .ok f := by
    rw [Path.join_pathBelow_nil (Disk.ne_empty_of_dirAt? hloc)]
    simp [loadFile, hread, hf, Except.mapError, bind, Except.bind]
  simp [loadPackages, hdir, hnames, hload, bind, Except.bind, pure, Except.pure]

end HoldsOnly

/-! ## Two directories -/

section Directories

variable {d : Disk.Sound} {previous latest name source source' : String} {f g : File}

/-- The changes between two directories of a single file are those between the files, unless both
directories are given by links: then there are none. -/
theorem compareTrees_single {c : Config} (hname : c.considers name = true)
    (hprevious : HoldsOnly d previous name source) (hlatest : HoldsOnly d latest name source')
    (hf : File.parse (Path.join previous name) source = .ok f)
    (hg : File.parse (Path.join latest name) source' = .ok g) :
    compareTrees d c previous latest = .ok
      (if (d.leadsTo? false previous).isSome ∨ (d.leadsTo? false latest).isSome then
        compareLoaded (groupPackages [f]) (groupPackages [g])
      else []) := by
  have hdirs : compareDirs d c (pathBelow previous []) (pathBelow latest []) =
      .ok (compareLoaded (groupPackages [f]) (groupPackages [g])) := by
    simp [compareDirs, hprevious.loadPackages_eq hname hf, hlatest.loadPackages_eq hname hg,
      bind, Except.bind, pure, Except.pure]
  have hvisited : visitedDirs d c previous latest =
      if (d.leadsTo? false previous).isSome ∨ (d.leadsTo? false latest).isSome then [[]]
      else [] := by
    rw [visitedDirs, hprevious.directories_eq, hlatest.directories_eq]
    cases (d.leadsTo? false previous).isSome <;> cases (d.leadsTo? false latest).isSome <;> rfl
  rw [compareTrees_eq, hprevious.listDirectories_eq, hlatest.listDirectories_eq, hvisited]
  split
  · simp [hdirs, bind, Except.bind, pure, Except.pure]
  · rfl

end Directories

/-- **Trees of a single file.**  Two directories that hold a single file of the same name are
compared like the texts of the files under the joined paths, unless both directories are given by
links.  The changes are the same if the package clauses agree.  Otherwise they are the same removals
and the same additions, in the order of the package names for directories and with the removals
first for texts.  If both directories are given by links, nothing is compared. -/
theorem compareTrees_of_single_files (d : Disk.Sound)
    (previous latest name source source' : String)
    (hgo : endsWith name ".go" = true) (htest : endsWith name "_test.go" = false)
    (hprevious : HoldsOnly d previous name source) (hlatest : HoldsOnly d latest name source')
    {p l : Package} (hp : Package.parse (Path.join previous name) source = .ok p)
    (hl : Package.parse (Path.join latest name) source' = .ok l) :
    let removals := comparePackages (some p) none
    let additions := comparePackages none (some l)
    let ofTexts := compareSources (Path.join previous name) source (Path.join latest name) source'
    let ofTrees := compareTrees d {} previous latest
    ((d.leadsTo? false previous).isSome ∨ (d.leadsTo? false latest).isSome →
      (p.name = l.name → ∃ diff, ofTrees = .ok diff ∧ ofTexts = .ok diff) ∧
      (p.name ≠ l.name →
        ofTrees = .ok (if p.name < l.name then removals ++ additions else additions ++ removals) ∧
        ofTexts = .ok (removals ++ additions) ∧
        (∀ c ∈ removals, c.latest = none) ∧ (∀ c ∈ additions, c.previous = none) ∧
        Diff.severity (removals ++ additions) = .major ∧
        Diff.severity (additions ++ removals) = .major)) ∧
    (d.leadsTo? false previous = none → d.leadsTo? false latest = none → ofTrees = .ok []) := by
  intro removals additions ofTexts ofTrees
  have hconsiders : Config.considers {} name = true := by simp [Config.considers, hgo, htest]
  have htexts : ofTexts = .ok (compareAsReplacement p l) := by
    simp [ofTexts, compareSources, hp, hl, bind, Except.bind, pure, Except.pure]
  obtain ⟨f, hf, rfl⟩ := Package.exists_file_of_parse hp
  obtain ⟨g, hg, rfl⟩ := Package.exists_file_of_parse hl
  have htrees := compareTrees_single hconsiders hprevious hlatest hf hg
  constructor
  · intro hroots
    rw [if_pos hroots, compareLoaded_single] at htrees
    constructor
    · intro hsame
      rw [if_pos (show f.package = g.package from hsame)] at htrees
      rw [compareAsReplacement, if_pos hsame] at htexts
      exact ⟨_, htrees, htexts⟩
    · intro hdiffer
      rw [if_neg (show f.package ≠ g.package from hdiffer)] at htrees
      rw [compareAsReplacement, if_neg hdiffer] at htexts
      exact ⟨htrees, htexts, fun c => latest_eq_none_of_mem, fun c => previous_eq_none_of_mem,
        severity_replacement _ _⟩
  · intro hlink hlink'
    simpa [hlink, hlink'] using htrees

/-- A computation that yields something after a mapping yields what is mapped. -/
theorem exists_of_map_eq_ok {ε α β : Type} {x : Except ε α} {f : α → β} {b : β}
    (h : x.map f = .ok b) : ∃ a, x = .ok a ∧ f a = b := by
  cases x with
  | error e => cases h
  | ok a => exact ⟨a, rfl, Except.ok.inj h⟩

/-- Two directories beside each other that hold a file of the same name. -/
def singleFiles (source source' : String) : Disk.Sound where
  entries :=
    [(["previous"], .dir), (["previous", "x.go"], .file (.ok source.toUTF8)),
      (["latest"], .dir), (["latest", "x.go"], .file (.ok source'.toUTF8))]
  wellFormed :=
    { distinct := by simp
      named := by simp only [List.forall_mem_cons]; decide +kernel
      housed := by simp [Disk.get?] }

/-- A package that is renamed: the directories report the addition first, since `shelf` comes before
`store`. -/
theorem compareTrees_of_single_files_renamed :
    let source := "package store\n\nfunc Open() {}\n"
    let source' := "package shelf\n\nfunc Open() {}\n"
    let d := singleFiles source source'
    let removals : Diff :=
      [.removed .major .packageRemoved ⟨"store", ⟨"previous/x.go", 1, 1⟩, "package store"⟩,
        .removed .major .functionRemoved ⟨"Open", ⟨"previous/x.go", 3, 1⟩, "func Open()"⟩]
    let additions : Diff :=
      [.added .minor .packageAdded ⟨"shelf", ⟨"latest/x.go", 1, 1⟩, "package shelf"⟩,
        .added .minor .functionAdded ⟨"Open", ⟨"latest/x.go", 3, 1⟩, "func Open()"⟩]
    HoldsOnly d "previous" "x.go" source ∧ HoldsOnly d "latest" "x.go" source' ∧
      compareTrees d {} "previous" "latest" = .ok (additions ++ removals) ∧
      compareSources "previous/x.go" source "latest/x.go" source' =
        .ok (removals ++ additions) := by
  intro source source' d removals additions
  have hprevious : HoldsOnly d "previous" "x.go" source :=
    .of_entries ["previous"] (.ok source.toUTF8) (by decide +kernel) rfl (by decide +kernel)
  have hlatest : HoldsOnly d "latest" "x.go" source' :=
    .of_entries ["latest"] (.ok source'.toUTF8) (by decide +kernel) rfl (by decide +kernel)
  obtain ⟨p, hp, hp'⟩ : ∃ p, Package.parse "previous/x.go" source = .ok p ∧
      (p.name, comparePackages (some p) none) = ("store", removals) :=
    exists_of_map_eq_ok (by decide +kernel)
  obtain ⟨l, hl, hl'⟩ : ∃ l, Package.parse "latest/x.go" source' = .ok l ∧
      (l.name, comparePackages none (some l)) = ("shelf", additions) :=
    exists_of_map_eq_ok (by decide +kernel)
  rw [Prod.mk.injEq] at hp' hl'
  have hroot : (d.leadsTo? false "previous").isSome := by decide +kernel
  obtain ⟨htrees, htexts, -⟩ := ((compareTrees_of_single_files d "previous" "latest" "x.go" source
    source' (by decide +kernel) (by decide +kernel) hprevious hlatest hp hl).1 (.inl hroot)).2
    (by rw [hp'.1, hl'.1]; decide)
  rw [hp'.1, hl'.1, if_neg (by decide), hp'.2, hl'.2] at htrees
  rw [hp'.2, hl'.2] at htexts
  exact ⟨hprevious, hlatest, htrees, htexts⟩

/-- Two directories that hold a file of the same name, and links to them. -/
def linkedSingleFiles (source source' : String) : Disk.Sound where
  entries :=
    [(["a"], .dir), (["a", "x.go"], .file (.ok source.toUTF8)), (["b"], .dir),
      (["b", "x.go"], .file (.ok source'.toUTF8)), (["previous"], .link "a"),
      (["latest"], .link "b")]
  wellFormed :=
    { distinct := by simp
      named := by simp only [List.forall_mem_cons]; decide +kernel
      housed := by simp [Disk.get?] }

/-- Through links to the directories nothing is compared, although the texts differ. -/
theorem compareTrees_through_links_eq_nil :
    let source := "package foo\n\nfunc Old() {}\n"
    let source' := "package foo\n\nfunc New() {}\n"
    let d := linkedSingleFiles source source'
    HoldsOnly d "previous" "x.go" source ∧ HoldsOnly d "latest" "x.go" source' ∧
      compareTrees d {} "previous" "latest" = .ok [] ∧
      compareSources "previous/x.go" source "latest/x.go" source' =
        .ok [.removed .major .functionRemoved ⟨"Old", ⟨"previous/x.go", 3, 1⟩, "func Old()"⟩,
          .added .minor .functionAdded ⟨"New", ⟨"latest/x.go", 3, 1⟩, "func New()"⟩] := by
  intro source source' d
  refine ⟨?_, ?_, by decide +kernel, by decide +kernel⟩
  · exact .of_entries ["a"] (.ok source.toUTF8) (by decide +kernel) rfl (by decide +kernel)
  · exact .of_entries ["b"] (.ok source'.toUTF8) (by decide +kernel) rfl (by decide +kernel)

end GoSurface
