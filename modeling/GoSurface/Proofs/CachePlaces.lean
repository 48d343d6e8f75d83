/-
# Where cached revisions stand

The directory of a repository is named by a digest, which is a name.  The directory of a revision is
found by joining the revision to that, and a revision can be any text.  If it never leads out of the
directory of the repository, its own directory stands there, where its names say, and goes when the
cache is given up.  Other revisions can lead anywhere.

* `Sha256.isName_hex`: digests are names;
* `Path.below?`: the names below a directory that a path leads to;
* `Disk.freePlace_of_below`: the place for a path that stays below a directory;
* `Disk.Sound.storage`, `Cache.after_storage`: runs on a disk keep it a tree;
* `Cache.Placed`, `Cache.Move.inPlace`: where things stand, and that moves keep it;
* `Cache.places_of_run`: where the directories of revisions stand, and which are in which;
* `Cache.places_nested_and_outside_root`: revisions that lead elsewhere.
-/
import GoSurface.Proofs.CacheRuns

namespace GoSurface

/-! ## Digests -/

namespace Sha256

theorem length_hexDigits (n value : Nat) : (hexDigits n value).length = n := by
  induction n generalizing value with
  | zero => rfl
  | succ n ih => simp [hexDigits, ih]

theorem mem_hexDigits {n value : Nat} {c : Char} (h : c ∈ hexDigits n value) :
    ∃ k < 16, c = hexDigit k := by
  induction n generalizing value with
  | zero => simp [hexDigits] at h
  | succ n ih =>
    rcases List.mem_append.mp h with h | h
    · exact ih h
    · exact ⟨value % 16, Nat.mod_lt _ (by decide), List.mem_singleton.mp h⟩

/-- Hexadecimal digits are single bytes and can stand in names. -/
theorem hexDigit_plain :
    ∀ k < 16, hexDigit k ≠ '/' ∧ hexDigit k ≠ '\x00' ∧ (hexDigit k).utf8Size = 1 := by
  decide

theorem length_toList_hex (text : String) : (hex text).toList.length = 64 := by
  have hwords : ∀ message, (digest message).length = 8 := fun _ => rfl
  simp [hex, List.length_flatMap, length_hexDigits, hwords]

theorem mem_hex {text : String} {c : Char} (h : c ∈ (hex text).toList) :
    ∃ k < 16, c = hexDigit k := by
  rw [hex, String.toList_ofList, List.mem_flatMap] at h
  obtain ⟨word, -, hc⟩ := h
  exact mem_hexDigits hc

/-- A text of characters of one byte has as many bytes as characters. -/
theorem utf8ByteSize_ofList {cs : List Char} (h : ∀ c ∈ cs, c.utf8Size = 1) :
    (String.ofList cs).utf8ByteSize = cs.length := by
  induction cs with
  | nil => rfl
  | cons c cs ih =>
    rw [String.ofList_cons, String.utf8ByteSize_append, ih fun x hx => h x (by simp [hx])]
    simp [h c]
    omega

theorem utf8ByteSize_hex (text : String) : (hex text).utf8ByteSize = 64 := by
  have hbytes : ∀ c ∈ (hex text).toList, c.utf8Size = 1 := by
    intro c hc
    obtain ⟨k, hk, rfl⟩ := mem_hex hc
    exact (hexDigit_plain k hk).2.2
  have hsize := utf8ByteSize_ofList hbytes
  rwa [String.ofList_toList, length_toList_hex] at hsize

/-- A digest can be the name of a directory. -/
theorem isName_hex (text : String) : Path.IsName (hex text) := by
  have hlength := length_toList_hex text
  have hne : ∀ short : String, short.toList.length < 64 → hex text ≠ short := by
    rintro short hshort rfl
    omega
  refine ⟨hne _ (by decide), hne _ (by decide), hne _ (by decide), ?_, ?_⟩
  · intro hslash
    obtain ⟨k, hk, hdigit⟩ := mem_hex hslash
    exact (hexDigit_plain k hk).1 hdigit.symm
  · rw [utf8ByteSize_hex]
    decide

end Sha256

/-! ## Paths that stay below a directory -/

namespace Path

/-- Goes down some names, from names that were gone down before.  Going up from there is going
out. -/
def descend : List String → List String → Option (List String)
  | names, [] => some names
  | names, x :: xs =>
    if x = "" ∨ x = "." then descend names xs
    else if x = ".." then
      if names = [] then none else descend names.dropLast xs
    else descend (names ++ [x]) xs

/-- The names below a directory that a path leads to, unless it leads out on the way. -/
def below? (path : String) : Option (List String) :=
  if isAbsolute path then none else descend [] (components path)

theorem below?_eq_some_iff {path : String} {names : List String} :
    below? path = some names ↔
      isAbsolute path = false ∧ descend [] (components path) = some names := by
  unfold below?
  split <;> simp_all

theorem IsName.below? {name : String} (h : IsName name) : below? name = some [name] := by
  rw [below?_eq_some_iff, h.components]
  exact ⟨h.isAbsolute, by simp [descend, h.ne_empty, h.ne_here, h.ne_above]⟩

end Path

namespace Disk

variable {d d' : Disk} {loc place : Location} {dir part path : String} {names : List String}

/-- Where no links stand, a walk that stays below a directory gets where its names say. -/
theorem walkWith_descend {follow : Bool}
    {onLink : Location → List String → Except Fault (Location × Entry)} (hfree : d.LinkFree loc)
    {start xs : List String} (hnames : Path.descend start xs = some names)
    (hwalk : d.walkWith follow onLink (loc ++ start) xs = .ok (place, .dir)) :
    place = loc ++ names := by
  induction xs generalizing start with
  | nil =>
    cases hnames
    cases hwalk
    rfl
  | cons x xs ih =>
    rw [Path.descend] at hnames
    rw [walkWith] at hwalk
    by_cases hidle : x = "" ∨ x = "."
    · rw [if_pos hidle] at hnames hwalk
      exact ih hnames hwalk
    rw [if_neg hidle] at hnames hwalk
    by_cases habove : x = ".."
    · rw [if_pos habove] at hnames hwalk
      split at hnames
      · cases hnames
      · next hout =>
        rw [List.dropLast_append_of_ne_nil hout] at hwalk
        exact ih hnames hwalk
    rw [if_neg habove] at hnames hwalk
    split at hwalk
    · cases hwalk
    rw [List.append_assoc] at hwalk
    cases hget : d.get? (loc ++ (start ++ [x])) with
    | none => simp [hget] at hwalk
    | some e =>
      cases e with
      | dir =>
        rw [hget] at hwalk
        exact ih hnames hwalk
      | file content => by_cases hxs : xs = [] <;> simp [hget, hxs] at hwalk
      | link target => exact absurd hget (hfree _ target)

/-- A new directory brings no links. -/
theorem LinkFree.createDir (h : d.LinkFree loc) (hmade : d.createDir path = .ok d') :
    d'.LinkFree loc := by
  obtain ⟨place, hplace, rfl⟩ := createDir_eq_ok_iff.mp hmade
  intro names target
  rw [get?_insert (ne_nil_of_freePlace hplace)]
  split
  · simp
  · exact h names target

/-- The new directory for a path that stays below a directory stands where its names say. -/
theorem freePlace_of_below (hdir : d.dirAt? dir = some loc) (hfree : d.LinkFree loc)
    (hpart : Path.below? part = some names) (hmade : d.createDir (Path.join dir part) = .ok d') :
    d.freePlace (Path.join dir part) = .ok (loc ++ names) := by
  obtain ⟨hrelative, hnames⟩ := Path.below?_eq_some_iff.mp hpart
  obtain ⟨place, hplace, -, hlocate⟩ := exists_place_of_createDir hmade
  -- the path leads to the new directory, and from the old one on only its names count
  obtain ⟨k, hwalk⟩ := exists_walkWith_of_locate_join ((extends_of_createDir hmade).dirAt? hdir)
    hrelative (hlocate true)
  rw [← List.append_nil loc] at hwalk
  obtain rfl := walkWith_descend (hfree.createDir hmade) hnames hwalk
  exact hplace

/-- A path leads to a directory that is there. -/
structure HasDir (d : Disk) (path : String) (loc : Location) : Prop where
  dirAt : d.dirAt? path = some loc
  there : d.get? loc = some .dir

theorem HasDir.mono (h : d.HasDir path loc) (hext : d.Extends d') : d'.HasDir path loc :=
  ⟨hext.dirAt? h.dirAt, hext.get? h.there⟩

/-- A directory that was made is there. -/
theorem hasDir_of_freePlace (hplace : d.freePlace path = .ok place)
    (hmade : d.createDir path = .ok d') : d'.HasDir path place := by
  obtain ⟨place', hplace', rfl, hlocate⟩ := exists_place_of_createDir hmade
  obtain rfl := Except.ok.inj (hplace.symm.trans hplace')
  refine ⟨dirAt?_eq_some_iff.mpr (hlocate true), ?_⟩
  rw [get?_insert (ne_nil_of_freePlace hplace), if_pos rfl]

/-- Nothing stands below a free place. -/
theorem Sound.get?_below_place (d : Sound) (hplace : d.freePlace path = .ok place)
    (hbelow : place <+: loc) : d.get? loc = none := by
  obtain ⟨names, rfl⟩ := hbelow
  have hnone := get?_of_freePlace hplace
  by_cases hne : names = []
  · rwa [hne, List.append_nil]
  · rw [Option.eq_none_iff_forall_ne_some]
    intro e hget
    simp [d.get?_of_append hget hne] at hnone

/-- A new directory has no links in it. -/
theorem Sound.linkFree_of_freePlace (d : Sound) (hplace : d.freePlace path = .ok place)
    (hmade : d.createDir path = .ok d') : d'.LinkFree place := by
  refine LinkFree.createDir ?_ hmade
  intro names target
  simp [d.get?_below_place hplace (List.prefix_append place names)]

/-- A directory that is removed is taken away with what is below it. -/
theorem removeTree_of_locate (hlocate : d.locate false path = .ok (loc, .dir)) (hne : loc ≠ []) :
    d.removeTree path = (.ok (), d.erase loc) := by
  simp [removeTree, hlocate, hne]

end Disk

/-! ## Storage on a sound disk -/

/-- Storage that acts on a disk which nobody else changes: in addition to the directories it makes,
a tree that was removed is gone. -/
structure Storage.ActsOn {σ : Type} (s : Storage σ) (disk : σ → Disk.Sound) : Prop
    extends s.MakesDirs fun w => (disk w).toDisk where
  removed : ∀ {path w w'}, s.removeTree path w = (.ok (), w') →
    (disk w).removeTree path = (.ok (), (disk w').toDisk)

/-- A sound disk as a store of directories, which stays sound. -/
def Disk.Sound.storage : Storage Disk.Sound where
  createDir path d :=
    match hmade : d.createDir path with
    | .ok d' => (.ok (), ⟨d', d.wellFormed_createDir hmade⟩)
    | .error fault => (.error fault, d)
  removeTree path d :=
    ((d.removeTree path).1, ⟨(d.removeTree path).2, d.wellFormed_removeTree path⟩)

/-- A call makes the directory on the disk, or fails and changes nothing. -/
theorem Disk.Sound.storage_createDir_cases (path : String) (d : Disk.Sound) :
    (∃ d' : Disk.Sound, d.createDir path = .ok d'.toDisk ∧
      Disk.Sound.storage.createDir path d = (.ok (), d')) ∨
    ∃ fault, d.createDir path = .error fault ∧
      Disk.Sound.storage.createDir path d = (.error fault, d) := by
  simp only [Disk.Sound.storage]
  split
  · next d' hmade => exact .inl ⟨⟨d', d.wellFormed_createDir hmade⟩, hmade, rfl⟩
  · next fault hfail => exact .inr ⟨fault, hfail, rfl⟩

theorem Disk.Sound.storage_createDir (path : String) (d : Disk.Sound) :
    Disk.storage.createDir path d = (Disk.Sound.storage.createDir path d).map id toDisk := by
  obtain ⟨d', hmade, hcall⟩ | ⟨fault, hfail, hcall⟩ := d.storage_createDir_cases path
  · simp [Disk.storage, hmade, hcall]
  · simp [Disk.storage, hfail, hcall]

theorem Disk.Sound.storage_removeTree (path : String) (d : Disk.Sound) :
    Disk.storage.removeTree path d = (Disk.Sound.storage.removeTree path d).map id toDisk :=
  rfl

/-- A sound disk acts on itself. -/
theorem Disk.Sound.actsOn_storage : Disk.Sound.storage.ActsOn id := by
  refine ⟨⟨?_, ?_⟩, ?_⟩
  · intro path d d' hcall
    obtain ⟨d₁, hmade, hcall'⟩ | ⟨_, -, hcall'⟩ := Disk.Sound.storage_createDir_cases path d
    · obtain rfl := congrArg Prod.snd (hcall.symm.trans hcall')
      exact hmade
    · cases hcall.symm.trans hcall'
  · intro path d fault d' hcall
    obtain ⟨_, -, hcall'⟩ | ⟨_, -, hcall'⟩ := Disk.Sound.storage_createDir_cases path d
    · cases hcall.symm.trans hcall'
    · obtain rfl := congrArg Prod.snd (hcall.symm.trans hcall')
      rfl
  · intro path d d' hcall
    have hplain := Disk.Sound.storage_removeTree path d
    rw [hcall] at hplain
    exact hplain

namespace Cache

/-! ## Runs on a sound disk -/

section Runs

variable (c : Cache) (d : Disk.Sound)

theorem setup_storage (root : String) :
    setup Disk.storage root c d =
      (setup Disk.Sound.storage root c d).map id (Prod.map id Disk.Sound.toDisk) := by
  unfold setup
  rw [Disk.Sound.storage_createDir]
  cases c.root with
  | some _ => rfl
  | none => rcases Disk.Sound.storage.createDir root d with ⟨_ | _, d'⟩ <;> rfl

theorem ensureRepo_storage (root r : String) :
    ensureRepo Disk.storage root r c d =
      (ensureRepo Disk.Sound.storage root r c d).map id (Prod.map id Disk.Sound.toDisk) := by
  unfold ensureRepo
  cases c.repo? r with
  | some _ => rfl
  | none =>
    simp only [Disk.Sound.storage_createDir]
    rcases Disk.Sound.storage.createDir (Path.join root (Sha256.hex r)) d with ⟨_ | _, d'⟩ <;> rfl

theorem add_storage (r v : String) :
    add Disk.storage r v c d =
      (add Disk.Sound.storage r v c d).map id (Prod.map id Disk.Sound.toDisk) := by
  unfold add
  cases c.root with
  | none => rfl
  | some root =>
    simp only [ensureRepo_storage]
    rcases ensureRepo Disk.Sound.storage root r c d with ⟨_ | x, c', d'⟩
    · rfl
    · simp only [Prod.map_apply, id_eq, Disk.Sound.storage_createDir]
      split
      · rfl
      · rcases Disk.Sound.storage.createDir (dirOf root x.hash v) d' with ⟨_ | _, d''⟩ <;> rfl

theorem destroy_storage :
    destroy Disk.storage c d =
      (destroy Disk.Sound.storage c d).map id (Prod.map id Disk.Sound.toDisk) := by
  unfold destroy
  cases c.root with
  | none => rfl
  | some root =>
    simp only [Disk.Sound.storage_removeTree]
    rcases Disk.Sound.storage.removeTree root d with ⟨_ | _, d'⟩ <;> rfl

/-- One operation does to a disk what it does to the disk as a sound one. -/
theorem step_storage (op : Op) :
    step Disk.storage op (c, d.toDisk) =
      (step Disk.Sound.storage op (c, d)).map id (Prod.map id Disk.Sound.toDisk) := by
  cases op with
  | setup root =>
    simp only [step, setup_storage]
    rfl
  | add r v =>
    simp only [step, add_storage]
    rfl
  | get r v => rfl
  | has r v => rfl
  | destroy =>
    simp only [step, destroy_storage]
    rfl

/-- A run on a sound disk is a run on the disk, and leaves it sound. -/
theorem after_storage (ops : List Op) :
    after Disk.storage ops (c, d.toDisk) =
      (after Disk.Sound.storage ops (c, d)).map id Disk.Sound.toDisk := by
  induction ops generalizing c d with
  | nil => rfl
  | cons op ops ih =>
    have hstep := congrArg Prod.snd (step_storage c d op)
    rw [after, List.foldl_cons, hstep]
    exact ih _ _

end Runs

variable {σ : Type} {s : Storage σ} {disk : σ → Disk.Sound} {st st' : Cache × σ}
  {r v p root : String} {loc : Location} {names : List String}

/-! ## Places -/

/-- Where the things stand that a cache has made: the root at some location, repositories in it
under their digests, and revisions that stay below their repository where their names say.  Nothing
stands where something else does. -/
structure Placed (disk : σ → Disk.Sound) (st : Cache × σ) (root : String) (loc : Location) :
    Prop where
  ne_nil : loc ≠ []
  linkFree : (disk st.2).LinkFree loc
  located : ∀ follow, (disk st.2).locate follow root = .ok (loc, .dir)
  repos : ∀ {r x}, st.1.repo? r = some x →
    (disk st.2).HasDir (Path.join root (Sha256.hex r)) (loc ++ [Sha256.hex r])
  oneRepo : ∀ {r x r' x'}, st.1.repo? r = some x → st.1.repo? r' = some x' →
    Sha256.hex r = Sha256.hex r' → r = r'
  revisions : ∀ {r v names}, Path.below? v = some names → st.1.has r v = true →
    names ≠ [] ∧
      (disk st.2).HasDir (dirOf root (Sha256.hex r) v) (loc ++ [Sha256.hex r] ++ names)
  oneRevision : ∀ {r v v' names}, Path.below? v = some names → Path.below? v' = some names →
    st.1.has r v = true → st.1.has r v' = true → v = v'

/-- A sound record with all that is recorded in its place. -/
structure InPlace (disk : σ → Disk.Sound) (st : Cache × σ) : Prop where
  sound : st.1.Sound
  placed : ∀ {root}, st.1.root = some root → ∃ loc, Placed disk st root loc

theorem Placed.dirAt? (h : Placed disk st root loc) : (disk st.2).dirAt? root = some loc :=
  Disk.dirAt?_eq_some_iff.mpr (h.located true)

/-- What is recorded stays in its place on a disk that gets more, but no links. -/
theorem Placed.mono (h : Placed disk st root loc) {w : σ} (hext : (disk st.2).Extends (disk w))
    (hfree : (disk w).LinkFree loc) : Placed disk (st.1, w) root loc := by
  refine ⟨h.ne_nil, hfree, fun follow => hext.locate (h.located follow),
    fun hrepo => (h.repos hrepo).mono hext, h.oneRepo, ?_, h.oneRevision⟩
  intro r v names hnames hhas
  obtain ⟨hne, hdir⟩ := h.revisions hnames hhas
  exact ⟨hne, hdir.mono hext⟩

theorem Placed.createDir (h : Placed disk st root loc) {path : String} {w : σ}
    (hmade : (disk st.2).createDir path = .ok (disk w)) : Placed disk (st.1, w) root loc :=
  h.mono (Disk.extends_of_createDir hmade) (h.linkFree.createDir hmade)

/-- A new root stands at a place of its own. -/
theorem exists_placed_found {w w' : σ} (hmade : (disk w).createDir root = .ok (disk w')) :
    ∃ loc, Placed disk ({ root := some root, repos := [] }, w') root loc := by
  obtain ⟨place, hplace, -, hlocate⟩ := Disk.exists_place_of_createDir hmade
  exact ⟨place, Disk.ne_nil_of_freePlace hplace,
    (disk w).linkFree_of_freePlace hplace hmade, hlocate, by simp [repo?], by simp [repo?],
    by simp [has, repo?], by simp [has, repo?]⟩

/-- A new repository stands in the root under its digest, where no other does. -/
theorem Placed.openRepo (h : Placed disk st root loc) {w : σ} (hnew : st.1.repo? r = none)
    (hmade : (disk st.2).createDir (Path.join root (Sha256.hex r)) = .ok (disk w)) :
    Placed disk (st.1.addRepo r (Sha256.hex r), w) root loc := by
  have hplace := Disk.freePlace_of_below h.dirAt? h.linkFree (Sha256.isName_hex r).below? hmade
  have hafter := h.createDir hmade
  -- a recorded repository with the same digest would stand at the free place
  have hother : ∀ {r' x}, st.1.repo? r' = some x → Sha256.hex r' ≠ Sha256.hex r := by
    intro r' x hrepo hhash
    have hthere := (h.repos hrepo).there
    rw [hhash, Disk.get?_of_freePlace hplace] at hthere
    cases hthere
  refine ⟨hafter.ne_nil, hafter.linkFree, hafter.located, ?_, ?_, ?_, ?_⟩
  · intro r' x hrepo
    rw [repo?_addRepo hnew] at hrepo
    split at hrepo
    · next hr =>
      rw [hr]
      exact Disk.hasDir_of_freePlace hplace hmade
    · exact hafter.repos hrepo
  · intro r₁ x₁ r₂ x₂ hrepo₁ hrepo₂ hhash
    rw [repo?_addRepo hnew] at hrepo₁ hrepo₂
    split at hrepo₁ <;> split at hrepo₂
    · simp_all
    · next hr _ => exact absurd (by rw [← hhash, hr]) (hother hrepo₂)
    · next _ hr => exact absurd (by rw [hhash, hr]) (hother hrepo₁)
    · exact h.oneRepo hrepo₁ hrepo₂ hhash
  · intro r' v names hnames hhas
    rw [has_addRepo hnew] at hhas
    exact hafter.revisions hnames hhas
  · intro r' v v' names hnames hnames' hhas hhas'
    rw [has_addRepo hnew] at hhas hhas'
    exact h.oneRevision hnames hnames' hhas hhas'

/-- A new revision that stays below its repository stands there, where no other does; one that does
not moves nothing. -/
theorem Placed.enter (h : Placed disk st root loc) {x : Repo} {w : σ}
    (hrepo : st.1.repo? r = some x)
    (hmade : (disk st.2).createDir (dirOf root (Sha256.hex r) v) = .ok (disk w)) :
    Placed disk (st.1.addRevision r v, w) root loc := by
  have hafter := h.createDir hmade
  have hplace : ∀ {names}, Path.below? v = some names →
      (disk st.2).freePlace (dirOf root (Sha256.hex r) v) = .ok (loc ++ [Sha256.hex r] ++ names) :=
    fun hnames => Disk.freePlace_of_below (h.repos hrepo).dirAt (h.linkFree.append _) hnames hmade
  -- what stands at the place of the new revision is neither its repository nor another revision
  have hne : Path.below? v ≠ some [] := by
    intro hnames
    have hnone := Disk.get?_of_freePlace (hplace hnames)
    rw [List.append_nil, (h.repos hrepo).there] at hnone
    cases hnone
  have hother : ∀ {v' names}, Path.below? v = some names → Path.below? v' = some names →
      st.1.has r v' ≠ true := by
    intro v' names hnames hnames' hhas
    have hthere := (h.revisions hnames' hhas).2.there
    rw [Disk.get?_of_freePlace (hplace hnames)] at hthere
    cases hthere
  refine ⟨hafter.ne_nil, hafter.linkFree, hafter.located, ?_, ?_, ?_, ?_⟩
  · intro r' y hrepo'
    obtain ⟨z, hz⟩ := exists_repo?_of_addRevision hrepo'
    exact hafter.repos hz
  · intro r₁ x₁ r₂ x₂ hrepo₁ hrepo₂ hhash
    obtain ⟨y₁, hy₁⟩ := exists_repo?_of_addRevision hrepo₁
    obtain ⟨y₂, hy₂⟩ := exists_repo?_of_addRevision hrepo₂
    exact h.oneRepo hy₁ hy₂ hhash
  · intro r' v' names hnames hhas
    rcases (has_addRevision hrepo).mp hhas with hhas | ⟨rfl, rfl⟩
    · exact hafter.revisions hnames hhas
    · refine ⟨?_, Disk.hasDir_of_freePlace (hplace hnames) hmade⟩
      rintro rfl
      exact hne hnames
  · intro r' v₁ v₂ names hnames₁ hnames₂ hhas₁ hhas₂
    rcases (has_addRevision hrepo).mp hhas₁ with hold₁ | ⟨hr₁, rfl⟩ <;>
      rcases (has_addRevision hrepo).mp hhas₂ with hold₂ | ⟨hr₂, rfl⟩
    · exact h.oneRevision hnames₁ hnames₂ hold₁ hold₂
    · exact absurd (hr₂ ▸ hold₁) (hother hnames₂ hnames₁)
    · exact absurd (hr₁ ▸ hold₂) (hother hnames₁ hnames₂)
    · rfl

theorem Placed.inPlace (h : Placed disk st root loc) (hsound : st.1.Sound)
    (hroot : st.1.root = some root) : InPlace disk st := by
  refine ⟨hsound, ?_⟩
  intro root' hroot'
  obtain rfl := Option.some.inj (hroot.symm.trans hroot')
  exact ⟨loc, h⟩

/-- Moves keep everything in its place. -/
theorem Move.inPlace (hs : s.ActsOn disk) (h : Move s st st') (hst : InPlace disk st) :
    InPlace disk st' := by
  have hsound := h.sound hst.sound
  cases h with
  | found hroot hcall =>
    obtain ⟨loc, hloc⟩ := exists_placed_found (hs.made hcall)
    exact hloc.inPlace hsound rfl
  | openRepo hroot hnew hcall =>
    obtain ⟨loc, hloc⟩ := hst.placed hroot
    exact (hloc.openRepo hnew (hs.made hcall)).inPlace hsound hroot
  | enter hroot hrepo hnew hcall =>
    have hmade := hs.made hcall
    rw [hst.sound.hashed hrepo] at hmade
    obtain ⟨loc, hloc⟩ := hst.placed hroot
    exact (hloc.enter hrepo hmade).inPlace hsound hroot
  | refuse hcall =>
    have hsame := hs.refused hcall
    refine ⟨hsound, ?_⟩
    intro root hroot
    obtain ⟨loc, hloc⟩ := hst.placed hroot
    exact ⟨loc, hloc.mono (hsame ▸ Disk.Extends.refl _) (hsame ▸ hloc.linkFree)⟩
  | forget hroot => exact ⟨hsound, by simp⟩

/-- After every run everything is in its place. -/
theorem inPlace_after (hs : s.ActsOn disk) (w : σ) (ops : List Op) :
    InPlace disk (after s ops ({}, w)) :=
  after_induction (fun _ _ => Move.inPlace hs) ops ⟨sound_empty, by simp⟩

/-- Giving up the cache takes away its root and all below it. -/
theorem Placed.get?_destroy (h : Placed disk st root loc) (hs : s.ActsOn disk)
    (hroot : st.1.root = some root) (hdone : (destroy s st.1 st.2).1 = .ok ())
    (names : List String) : (disk (destroy s st.1 st.2).2.2).get? (loc ++ names) = none := by
  obtain ⟨hstate, hanswer⟩ := destroy_of_root (s := s) hroot st.2
  rcases hcall : s.removeTree root st.2 with ⟨fault | _, w'⟩
  · simp [hanswer, hcall, Except.mapError] at hdone
  · have hgone := hs.removed hcall
    rw [Disk.removeTree_of_locate (h.located false) h.ne_nil] at hgone
    rw [hstate, hcall, ← (Prod.mk.inj hgone).2, Disk.get?_erase h.ne_nil,
      if_pos (List.prefix_append loc names)]

/-- The directories of two repositories are not in one another. -/
theorem Placed.repo_prefix_iff (h : Placed disk st root loc) {r r' : String} {x x' : Repo}
    (hrepo : st.1.repo? r = some x) (hrepo' : st.1.repo? r' = some x')
    {names names' : List String} :
    loc ++ [Sha256.hex r] ++ names <+: loc ++ [Sha256.hex r'] ++ names' ↔
      r = r' ∧ names <+: names' := by
  rw [List.append_assoc, List.append_assoc, List.prefix_append_right_inj, List.singleton_append,
    List.singleton_append, List.cons_prefix_cons]
  constructor
  · rintro ⟨hhash, hnames⟩
    exact ⟨h.oneRepo hrepo hrepo' hhash, hnames⟩
  · rintro ⟨rfl, hnames⟩
    exact ⟨rfl, hnames⟩

/-- After every run, on a disk that nobody else changes: an added revision has the directory that
was answered, and while the cache is set up its root is at a location, with the repositories in it
under their digests.  A revision that never leads out of its repository has its directory there,
where its names say: with a single name, right in it.  Such a directory is never in that of another
repository.  It is in that of another such revision only if they have the repository in common and
the names of one start with those of the other, so revisions with single names are kept apart.
Giving up the cache takes all of them away. -/
theorem places_of_run (hs : s.ActsOn disk) (w : σ) (ops : List Op) :
    let st := after s ops ({}, w)
    (∀ r v p, (step s (.add r v) st).1 = .path (.ok p) →
      (after s (ops ++ [.add r v]) ({}, w)).1.get r v = .ok p) ∧
    ∀ root, st.1.root = some root → ∃ loc, loc ≠ [] ∧ (disk st.2).dirAt? root = some loc ∧
      (∀ r x, st.1.repo? r = some x →
        (disk st.2).dirAt? (Path.join root (Sha256.hex r)) = some (loc ++ [Sha256.hex r])) ∧
      (∀ r v p names, st.1.get r v = .ok p → Path.below? v = some names →
        names ≠ [] ∧ (disk st.2).dirAt? p = some (loc ++ [Sha256.hex r] ++ names)) ∧
      (∀ r v p names, st.1.get r v = .ok p → Path.below? v = some names →
        ∀ r' x', st.1.repo? r' = some x' →
          (loc ++ [Sha256.hex r'] <+: loc ++ [Sha256.hex r] ++ names ↔ r' = r) ∧
          ¬ loc ++ [Sha256.hex r] ++ names <+: loc ++ [Sha256.hex r']) ∧
      (∀ r v p names, st.1.get r v = .ok p → Path.below? v = some names →
        ∀ r' v' p' names', st.1.get r' v' = .ok p' → Path.below? v' = some names' →
          (loc ++ [Sha256.hex r] ++ names <+: loc ++ [Sha256.hex r'] ++ names' ↔
            r = r' ∧ names <+: names') ∧
          (names.length = names'.length →
            loc ++ [Sha256.hex r] ++ names <+: loc ++ [Sha256.hex r'] ++ names' →
            r = r' ∧ v = v')) ∧
      ((destroy s st.1 st.2).1 = .ok () →
        ∀ names, (disk (destroy s st.1 st.2).2.2).get? (loc ++ names) = none) := by
  intro st
  have hst : InPlace disk st := inPlace_after hs w ops
  refine ⟨?_, ?_⟩
  · intro r v p hanswer
    rw [after_concat]
    exact (add_spec r v st.1 st.2).get_of_ok (Answer.path.inj hanswer)
  intro root hroot
  obtain ⟨loc, hloc⟩ := hst.placed hroot
  -- what is known is recorded, with its repository
  have hknown : ∀ {r v p}, st.1.get r v = .ok p →
      st.1.has r v = true ∧ p = dirOf root (Sha256.hex r) v ∧ ∃ x, st.1.repo? r = some x := by
    intro r v p hget
    obtain ⟨hhas, root', hroot', hp⟩ := hst.sound.get_eq_ok_iff.mp hget
    obtain rfl := Option.some.inj (hroot.symm.trans hroot')
    obtain ⟨x, hrepo, -⟩ := has_eq_true_iff.mp hhas
    exact ⟨hhas, hp, x, hrepo⟩
  refine ⟨loc, hloc.ne_nil, hloc.dirAt?, fun r x hrepo => (hloc.repos hrepo).dirAt, ?_, ?_, ?_,
    hloc.get?_destroy hs hroot⟩
  · intro r v p names hget hnames
    obtain ⟨hhas, rfl, -⟩ := hknown hget
    obtain ⟨hne, hdir⟩ := hloc.revisions hnames hhas
    exact ⟨hne, hdir.dirAt⟩
  · intro r v p names hget hnames r' x' hrepo'
    obtain ⟨hhas, -, x, hrepo⟩ := hknown hget
    obtain ⟨hne, -⟩ := hloc.revisions hnames hhas
    have hdown : loc ++ [Sha256.hex r'] ++ [] <+: loc ++ [Sha256.hex r] ++ names ↔ _ :=
      hloc.repo_prefix_iff hrepo' hrepo
    have hup : loc ++ [Sha256.hex r] ++ names <+: loc ++ [Sha256.hex r'] ++ [] ↔ _ :=
      hloc.repo_prefix_iff hrepo hrepo'
    rw [List.append_nil] at hdown hup
    rw [hdown, hup]
    simp [hne]
  · intro r v p names hget hnames r' v' p' names' hget' hnames'
    obtain ⟨hhas, -, x, hrepo⟩ := hknown hget
    obtain ⟨hhas', -, x', hrepo'⟩ := hknown hget'
    refine ⟨hloc.repo_prefix_iff hrepo hrepo', ?_⟩
    intro hlength hstart
    obtain ⟨rfl, hfirst⟩ := (hloc.repo_prefix_iff hrepo hrepo').mp hstart
    obtain rfl := hfirst.eq_of_length hlength
    exact ⟨rfl, hloc.oneRevision hnames hnames' hhas hhas'⟩

/-- Two revisions with one name each. -/
def twoNames : List Op :=
  [.setup "c", .add "r" "v1", .add "r" "./v2/"]

/-- The second revision has its directory next to that of the first, not in it. -/
theorem places_of_two_names :
    ∃ loc, loc ≠ [] ∧ (after Disk.storage twoNames ({}, {})).2.dirAt? "c" = some loc ∧
      (∃ p, (after Disk.storage twoNames ({}, {})).1.get "r" "./v2/" = .ok p ∧
        (after Disk.storage twoNames ({}, {})).2.dirAt? p =
          some (loc ++ [Sha256.hex "r"] ++ ["v2"])) ∧
      ¬ loc ++ [Sha256.hex "r"] ++ ["v1"] <+: loc ++ [Sha256.hex "r"] ++ ["v2"] := by
  have hrecord : (after Disk.storage twoNames ({}, {})).1.root = some "c" ∧
      (after Disk.storage twoNames ({}, {})).1.has "r" "v1" = true ∧
      (after Disk.storage twoNames ({}, {})).1.has "r" "./v2/" = true := by
    decide +kernel
  have hrun := after_storage {} .empty twoNames
  rw [show Disk.Sound.empty.toDisk = {} from rfl] at hrun
  rw [hrun] at hrecord ⊢
  have hsound := sound_after Disk.Sound.storage twoNames .empty
  obtain ⟨p₁, hget₁⟩ := hsound.has_iff_get.mp hrecord.2.1
  obtain ⟨p₂, hget₂⟩ := hsound.has_iff_get.mp hrecord.2.2
  have hv₁ : Path.below? "v1" = some ["v1"] := by decide
  have hv₂ : Path.below? "./v2/" = some ["v2"] := by decide
  obtain ⟨-, hplaces⟩ := places_of_run Disk.Sound.actsOn_storage .empty twoNames
  obtain ⟨loc, hne, hroot, -, hdirs, -, hapart, -⟩ := hplaces "c" hrecord.1
  refine ⟨loc, hne, hroot, ⟨p₂, hget₂, (hdirs _ _ _ _ hget₂ hv₂).2⟩, ?_⟩
  intro hnested
  have hsame := (hapart _ _ _ _ hget₁ hv₁ _ _ _ _ hget₂ hv₂).2 rfl hnested
  exact absurd hsame.2 (by decide)

/-- Revisions of which one has two names and one leads out of the cache. -/
def pathRevisions : List Op :=
  [.setup "c", .add "r" "v1", .add "r" "v1/sub", .add "r" "../../x"]

/-- The directory of one revision is in that of another, and the directory of a third is outside the
root, where it stays when the cache has been given up. -/
theorem places_nested_and_outside_root :
    let st := after Disk.storage pathRevisions ({}, {})
    let dir := fun v => (st.1.get "r" v).toOption.bind st.2.dirAt?
    dir "v1" = some ["c", Sha256.hex "r", "v1"] ∧
    dir "v1/sub" = some ["c", Sha256.hex "r", "v1", "sub"] ∧
    dir "../../x" = some ["x"] ∧
    (destroy Disk.storage st.1 st.2).1 = .ok () ∧
    (destroy Disk.storage st.1 st.2).2.2.dirAt? "x" = some ["x"] := by
  decide +kernel

end Cache

end GoSurface
