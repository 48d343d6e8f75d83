/-
# A cache as a set of pairs

Where revisions are names and roots can be made, a cache answers every operation as a plain set of
pairs would, and the disk holds the directories of these pairs and nothing else that is new.  The
two are run side by side: one operation keeps them in agreement, and so does every run.

* `Disk.houses`, `Disk.stands`: whether a path can be that of something, and whether it is;
* `Shelf`, `Shelf.step`: a set of pairs below a root, and its operations;
* `Shelf.Suits`: operations that a cache can carry out;
* `Cache.Keeps`, `Cache.Keeps.step`: agreement of a cache and a set of pairs, kept by an operation;
* `Cache.run_as_shelf`: a cache is a set of pairs.
-/
import GoSurface.Proofs.CachePlaces
import Mathlib.Data.Finset.Insert

namespace GoSurface

/-! ## Disks that differ in nothing -/

namespace Disk

variable {d d' d₀ : Disk} {loc place : Location} {path dir name : String}

/-- Two disks with the same things at the same locations. -/
structure Alike (d d' : Disk) : Prop where
  here : d'.here = d.here
  get? : ∀ loc, d'.get? loc = d.get? loc

theorem Alike.refl (d : Disk) : d.Alike d :=
  ⟨rfl, fun _ => rfl⟩

/-- Paths lead to the same things on both. -/
theorem Alike.walkWith (h : d.Alike d') (follow : Bool)
    (onLink : Location → List String → Except Fault (Location × Entry)) (loc : Location)
    (xs : List String) : d'.walkWith follow onLink loc xs = d.walkWith follow onLink loc xs := by
  induction xs generalizing loc with
  | nil => rfl
  | cons x xs ih =>
    rw [Disk.walkWith, Disk.walkWith, h.get?]
    simp only [ih]

theorem Alike.walkFrom (h : d.Alike d') (follow : Bool) (n : Nat) :
    d'.walkFrom follow n = d.walkFrom follow n := by
  induction n with
  | zero =>
    funext loc xs
    exact h.walkWith _ _ loc xs
  | succ n ih =>
    funext loc xs
    rw [Disk.walkFrom, Disk.walkFrom, ih, h.walkWith]

theorem Alike.freePlace (h : d.Alike d') (path : String) :
    d'.freePlace path = d.freePlace path := by
  unfold Disk.freePlace Disk.start Disk.base
  simp only [h.walkFrom, h.here, h.get?]

/-- Something can be put at a path: the path is sound, and leads to a name in a directory. -/
def houses (d : Disk) (path : String) : Bool :=
  decide (checkPath path = .ok ()) && (d.start path).toOption.isSome &&
  ((Path.trimmed path).getLast?.all fun name => name.utf8ByteSize ≤ maxName) &&
  match d.walkFrom true maxLinks (d.base path) (Path.trimmed path).dropLast with
  | .ok (_, .dir) => true
  | _ => false

/-- Something is at a path, be it a link that leads nowhere; slashes at the end do not count. -/
def stands (d : Disk) (path : String) : Bool :=
  (d.walkFrom false maxLinks (d.base path) (Path.trimmed path)).toOption.isSome

theorem isSome_start_iff :
    (d.start path).toOption.isSome = true ↔ d.get? (d.base path) = some .dir := by
  rw [start]
  split <;> simp_all [Except.toOption]

theorem houses_eq_true_iff :
    d.houses path = true ↔ checkPath path = .ok () ∧ d.get? (d.base path) = some .dir ∧
      (∀ name ∈ (Path.trimmed path).getLast?, name.utf8ByteSize ≤ maxName) ∧
      ∃ parent, d.walkFrom true maxLinks (d.base path) (Path.trimmed path).dropLast =
        .ok (parent, .dir) := by
  unfold houses
  rw [Bool.and_eq_true, Bool.and_eq_true, Bool.and_eq_true, decide_eq_true_eq, isSome_start_iff,
    and_assoc, and_assoc]
  refine and_congr Iff.rfl (and_congr Iff.rfl (and_congr (by simp [Option.all_eq_true]) ?_))
  split
  · next parent hwalk => simp [hwalk]
  · next hother => simpa using fun parent => hother parent

/-- A name in a directory leads to what has it, which is not followed. -/
theorem walkWith_name (hname : Path.IsName name)
    (onLink : Location → List String → Except Fault (Location × Entry)) :
    d.walkWith false onLink loc [name] =
      match d.get? (loc ++ [name]) with
      | none => .error .notFound
      | some e => .ok (loc ++ [name], e) := by
  rw [walkWith_cons, stride_of_isName hname]
  rcases d.get? (loc ++ [name]) with _ | _ | _ | _ <;> rfl

/-- Where something can be put at a path it can be put unless something is there. -/
theorem exists_freePlace_eq (h : d.houses path = true) :
    ∃ place, d.freePlace path = if d.stands path then .error .exists else .ok place := by
  obtain ⟨hcheck, hstart, hshort, parent, hparent⟩ := houses_eq_true_iff.mp h
  rcases List.eq_nil_or_concat' (Path.trimmed path) with hnil | ⟨above, name, htrimmed⟩
  · -- the root of the disk
    have hback : (Path.components path).reverse.dropWhile (· = "") = [] := by
      simpa [Path.trimmed, List.rdropWhile] using hnil
    have hstands : d.stands path = true := by
      rw [stands, hnil]
      rfl
    exact ⟨[], by simp [freePlace, hcheck, hback, hstands, bind, Except.bind]⟩
  · rw [htrimmed, List.dropLast_concat] at hparent
    rw [htrimmed, List.getLast?_concat] at hshort
    have hwalk : ∀ {res}, (∀ k, d.walkWith false k parent [name] = res) →
        d.walkFrom false maxLinks (d.base path) (Path.trimmed path) = res := by
      intro res hrest
      rw [htrimmed]
      exact walkFrom_append_of_ne_nil (by simp) hrest hparent
    by_cases hdots : name = "." ∨ name = ".."
    · -- such a name leads to a directory
      obtain ⟨up, hup⟩ : ∃ up, ∀ k, d.walkWith false k parent [name] = .ok (up, .dir) := by
        rcases hdots with rfl | rfl
        · exact ⟨parent, fun k => by simp [walkWith]⟩
        · exact ⟨parent.dropLast, fun k => by simp [walkWith]⟩
      have hstands : d.stands path = true := by
        rw [stands, hwalk hup]
        rfl
      refine ⟨[], ?_⟩
      rw [freePlace_of_trimmed hcheck hstart htrimmed hparent, if_pos (by simpa using hdots),
        hstands]
      rfl
    · rw [not_or] at hdots
      have hname : Path.IsName name :=
        ⟨Path.ne_empty_of_trimmed htrimmed, hdots.1, hdots.2,
          Path.slashless_of_mem_components (Path.mem_components_of_trimmed htrimmed),
          hshort name rfl⟩
      refine ⟨parent ++ [name], ?_⟩
      rw [freePlace_eq hcheck hstart htrimmed hparent hname, stands, hwalk (walkWith_name hname)]
      cases d.get? (parent ++ [name]) <;> rfl

/-- A free place is in a directory. -/
theorem houses_of_freePlace (hplace : d.freePlace path = .ok place) : d.houses path = true := by
  obtain ⟨hcheck, hstart, above, name, parent, htrimmed, hparent, hname, -, -⟩ :=
    freePlace_eq_ok_iff.mp hplace
  rw [houses_eq_true_iff, htrimmed]
  exact ⟨hcheck, hstart, by simpa using hname.short, parent, by simpa using hparent⟩

/-- Nothing is at a free place. -/
theorem stands_of_freePlace (hplace : d.freePlace path = .ok place) : d.stands path = false := by
  obtain ⟨place', hplace'⟩ := exists_freePlace_eq (houses_of_freePlace hplace)
  by_contra hstands
  rw [Bool.not_eq_false] at hstands
  simp [hplace, hstands] at hplace'

end Disk

/-! ## Sets of pairs -/

open Cache (Op Answer dirOf)

/-- Pairs of repositories and revisions below a root. -/
structure Shelf where
  root : Option String := none
  pairs : Finset (String × String) := ∅
deriving DecidableEq

namespace Shelf

/-- The directory of a pair.  A repository is known by its pairs. -/
def get (shelf : Shelf) (repo revision : String) : Except CacheError String :=
  match shelf.root with
  | none => .error (.repositoryNotCached repo)
  | some root =>
    if (repo, revision) ∈ shelf.pairs then .ok (dirOf root (Sha256.hex repo) revision)
    else if ∃ p ∈ shelf.pairs, p.1 = repo then .error (.revisionNotCached revision)
    else .error (.repositoryNotCached repo)

/-- One operation, where the disk decides only whether a root is new. -/
def step (d : Disk) : Op → Shelf → Answer × Shelf
  | .setup root, shelf =>
    match shelf.root with
    | some _ => (.done (.error .alreadySetUp), shelf)
    | none =>
      if d.stands root then (.done (.error (.setupFailed root .exists)), shelf)
      else (.done (.ok ()), { root := some root, pairs := ∅ })
  | .add repo revision, shelf =>
    match shelf.root with
    | none => (.path (.error .notSetUp), shelf)
    | some root =>
      (.path (.ok (dirOf root (Sha256.hex repo) revision)),
        { shelf with pairs := insert (repo, revision) shelf.pairs })
  | .get repo revision, shelf => (.path (shelf.get repo revision), shelf)
  | .has repo revision, shelf => (.known ((repo, revision) ∈ shelf.pairs), shelf)
  | .destroy, shelf =>
    match shelf.root with
    | none => (.done (.error .notSetUp), shelf)
    | some _ => (.done (.ok ()), {})

/-- The pairs after some operations. -/
def after (d : Disk) (ops : List Op) (shelf : Shelf) : Shelf :=
  ops.foldl (fun shelf op => (step d op shelf).2) shelf

/-- An operation that a cache can carry out: a new root has a directory to be in, an added revision
is a name, its path is sound, and its repository has a digest of its own. -/
def Fits (d : Disk) (shelf : Shelf) : Op → Prop
  | .setup root => shelf.root = none → d.houses root = true
  | .add repo revision => ∀ root ∈ shelf.root, Path.IsName revision ∧
      Disk.checkPath (dirOf root (Sha256.hex repo) revision) = .ok () ∧
      ∀ p ∈ shelf.pairs, Sha256.hex p.1 = Sha256.hex repo → p.1 = repo
  | .get _ _ | .has _ _ | .destroy => True

/-- Operations that a cache can carry out one after another. -/
def Suits (d : Disk) : Shelf → List Op → Prop
  | _, [] => True
  | shelf, op :: ops => Fits d shelf op ∧ Suits d (step d op shelf).2 ops

/-- The names below the root of all directories that there are: the root itself, and those of the
repositories and of the revisions. -/
def Lists (pairs : Finset (String × String)) (names : List String) : Prop :=
  names = [] ∨ ∃ p ∈ pairs, names <+: [Sha256.hex p.1, p.2]

instance (d : Disk) (shelf : Shelf) : (op : Op) → Decidable (Fits d shelf op)
  | .setup root => inferInstanceAs (Decidable (shelf.root = none → d.houses root = true))
  | .add repo revision => inferInstanceAs (Decidable (∀ root ∈ shelf.root,
      Path.IsName revision ∧ Disk.checkPath (dirOf root (Sha256.hex repo) revision) = .ok () ∧
      ∀ p ∈ shelf.pairs, Sha256.hex p.1 = Sha256.hex repo → p.1 = repo))
  | .get _ _ | .has _ _ | .destroy => inferInstanceAs (Decidable True)

instance decidableSuits (d : Disk) :
    (shelf : Shelf) → (ops : List Op) → Decidable (Suits d shelf ops)
  | _, [] => inferInstanceAs (Decidable True)
  | shelf, op :: ops =>
    have := decidableSuits d (step d op shelf).2 ops
    inferInstanceAs (Decidable (Fits d shelf op ∧ Suits d (step d op shelf).2 ops))

variable {pairs : Finset (String × String)} {names : List String} {r v : String}

/-- The start of a way of two names. -/
theorem prefix_pair_iff {a b : String} :
    names <+: [a, b] ↔ names = [] ∨ names = [a] ∨ names = [a, b] := by
  rw [List.prefix_cons_iff]
  simp only [List.prefix_cons_iff, List.prefix_nil]
  aesop

/-- A new pair brings two directories, that of the revision and that of the repository. -/
theorem lists_insert :
    Lists (insert (r, v) pairs) names ↔
      names = [Sha256.hex r, v] ∨ names = [Sha256.hex r] ∨ Lists pairs names := by
  unfold Lists
  rw [Finset.exists_mem_insert, prefix_pair_iff]
  tauto

theorem lists_repo_iff {a : String} : Lists pairs [a] ↔ ∃ p ∈ pairs, a = Sha256.hex p.1 := by
  simp [Lists]

theorem lists_pair_iff {a b : String} :
    Lists pairs [a, b] ↔ ∃ p ∈ pairs, a = Sha256.hex p.1 ∧ b = p.2 := by
  simp [Lists]

end Shelf

namespace Disk

variable {d d' d₀ : Disk} {loc place : Location} {path dir name : String}
  {held held' : List String → Prop} {names : List String}

/-! ## Disks with a tree of directories -/

/-- A disk that differs from another one by a tree of directories. -/
structure Layout (d₀ : Disk) (loc : Location) (held : List String → Prop) (d : Disk) : Prop where
  here : d.here = d₀.here
  outside : ∀ {l}, ¬ loc <+: l → d.get? l = d₀.get? l
  inside : ∀ {names e}, d.get? (loc ++ names) = some e ↔ e = .dir ∧ held names

theorem Layout.congr (h : Layout d₀ loc held d) (hheld : ∀ names, held names ↔ held' names) :
    Layout d₀ loc held' d :=
  ⟨h.here, h.outside, by simp [h.inside, hheld]⟩

/-- One more directory in the tree. -/
theorem Layout.insert (h : Layout d₀ loc held d) (hne : loc ≠ []) (names : List String) :
    Layout d₀ loc (fun x => x = names ∨ held x) (d.insert (loc ++ names) .dir) := by
  have hplace : loc ++ names ≠ [] := by simp [hne]
  refine ⟨h.here, ?_, ?_⟩
  · intro l houtside
    rw [get?_insert hplace, if_neg]
    · exact h.outside houtside
    · rintro rfl
      exact houtside (List.prefix_append loc names)
  · intro x e
    rw [get?_insert hplace]
    by_cases hx : x = names
    · simp [hx, eq_comm]
    · simp [hx, h.inside]

/-- A tree at a free place takes nothing away. -/
theorem Layout.extends {d₀ : Sound} (h : Layout d₀ loc held d)
    (hplace : d₀.freePlace path = .ok loc) : d₀.Extends d := by
  refine ⟨h.here, ?_⟩
  intro l e hget
  have houtside : ¬ loc <+: l := by
    intro hbelow
    simp [d₀.get?_below_place hplace hbelow] at hget
  rw [h.outside houtside, hget]

/-- The path of the place leads to the tree. -/
theorem Layout.locate {d₀ : Sound} (h : Layout d₀ loc held d)
    (hplace : d₀.freePlace path = .ok loc) (hheld : held []) (follow : Bool) :
    d.locate follow path = .ok (loc, .dir) := by
  have hdir : d.get? (loc ++ []) = some .dir := h.inside.mpr ⟨rfl, hheld⟩
  rw [List.append_nil] at hdir
  exact locate_of_freePlace hplace (h.extends hplace) hdir follow

/-- The root of the tree, as a directory in it. -/
theorem Layout.dirAt? {d₀ : Sound} (h : Layout d₀ loc held d)
    (hplace : d₀.freePlace path = .ok loc) (hheld : held []) :
    d.dirAt? path = some (loc ++ []) := by
  rw [List.append_nil]
  exact dirAt?_eq_some_iff.mpr (h.locate hplace hheld true)

/-- A directory in the tree has the joined path. -/
theorem Layout.dirAt?_join (h : Layout d₀ loc held d) (hdir : d.dirAt? dir = some (loc ++ names))
    (hname : Path.IsName name) (hcheck : checkPath (Path.join dir name) = .ok ())
    (hheld : held (names ++ [name])) :
    d.dirAt? (Path.join dir name) = some (loc ++ (names ++ [name])) := by
  rw [← List.append_assoc]
  refine Disk.dirAt?_join hdir hname hcheck ?_
  rw [List.append_assoc, h.inside]
  exact ⟨rfl, hheld⟩

/-- A directory that is not in the tree can be made. -/
theorem Layout.createDir_join (h : Layout d₀ loc held d)
    (hdir : d.dirAt? dir = some (loc ++ names)) (hname : Path.IsName name)
    (hcheck : checkPath (Path.join dir name) = .ok ()) (hnew : ¬ held (names ++ [name])) :
    d.createDir (Path.join dir name) = .ok (d.insert (loc ++ (names ++ [name])) .dir) := by
  have hfree : d.get? (loc ++ (names ++ [name])) = none := by
    rw [Option.eq_none_iff_forall_ne_some]
    intro e hget
    exact hnew (h.inside.mp hget).2
  refine createDir_eq_ok_iff.mpr ⟨_, ?_, rfl⟩
  rw [freePlace_join hdir hname hcheck, List.append_assoc, hfree]
  rfl

/-- A path that goes on from a sound path is sound only if that is. -/
theorem checkPath_of_join {part : String} (hdir : dir ≠ "") (hpart : Path.isAbsolute part = false)
    (hcheck : checkPath (Path.join dir part) = .ok ()) : checkPath dir = .ok () := by
  obtain ⟨stem, hstem, hjoin⟩ := Path.join_eq hdir
  rw [hjoin part hpart, checkPath_eq_ok_iff] at hcheck
  obtain ⟨hnull, -, hshort⟩ := hcheck
  rw [checkPath_eq_ok_iff]
  rcases hstem with rfl | rfl
  · refine ⟨?_, hdir, ?_⟩
    · simp_all
    · simp only [String.utf8ByteSize_append] at hshort
      omega
  · refine ⟨?_, hdir, ?_⟩
    · simp_all
    · simp only [String.utf8ByteSize_append] at hshort ⊢
      omega

theorem storage_createDir (h : d.createDir path = .ok d') :
    storage.createDir path d = (.ok (), d') := by
  simp [storage, h]

end Disk

namespace Cache

variable {d₀ : Disk.Sound} {d d' : Disk} {shelf : Shelf} {c c' : Cache} {r v root : String}
  {loc : Location} {x : Repo}

/-! ## Agreement -/

/-- A cache and its disk keep a set of pairs: they are recorded, and the disk is as it was in the
beginning but for their directories. -/
structure Keeps (d₀ : Disk) (shelf : Shelf) (st : Cache × Disk) : Prop where
  sound : st.1.Sound
  root : st.1.root = shelf.root
  has : ∀ {r v}, st.1.has r v = true ↔ (r, v) ∈ shelf.pairs
  used : ∀ {r x}, st.1.repo? r = some x → ∃ v, (r, v) ∈ shelf.pairs
  apart : ∀ {p q}, p ∈ shelf.pairs → q ∈ shelf.pairs → Sha256.hex p.1 = Sha256.hex q.1 → p.1 = q.1
  named : ∀ {p}, p ∈ shelf.pairs → Path.IsName p.2
  closed : shelf.root = none → d₀.Alike st.2
  opened : ∀ {root}, shelf.root = some root → ∃ loc, d₀.freePlace root = .ok loc ∧
    Disk.Layout d₀ loc (Shelf.Lists shelf.pairs) st.2

theorem keeps_empty (d₀ : Disk) : Keeps d₀ {} ({}, d₀) :=
  ⟨sound_empty, rfl, by simp [Cache.has], by simp, by simp, by simp,
    fun _ => Disk.Alike.refl d₀, by simp⟩

theorem Keeps.exists_repo (h : Keeps d₀ shelf (c, d)) (hpair : (r, v) ∈ shelf.pairs) :
    ∃ x, c.repo? r = some x ∧ v ∈ x.revisions :=
  has_eq_true_iff.mp (h.has.mpr hpair)

/-- What is not recorded of a repository is no pair. -/
theorem Keeps.not_mem_of_repo (h : Keeps d₀ shelf (c, d)) (hrepo : c.repo? r = some x)
    (hv : v ∉ x.revisions) : (r, v) ∉ shelf.pairs := by
  intro hpair
  obtain ⟨y, hy, hmem⟩ := h.exists_repo hpair
  obtain rfl := Option.some.inj (hrepo.symm.trans hy)
  exact hv hmem

/-- Asking for a directory is answered from the pairs. -/
theorem Keeps.get_eq (h : Keeps d₀ shelf (c, d)) (r v : String) : c.get r v = shelf.get r v := by
  have hroot : c.root = shelf.root := h.root
  unfold Cache.get Shelf.get
  cases hrepo : c.repo? r with
  | none =>
    have hnone : ∀ v, (r, v) ∉ shelf.pairs := by
      intro v hpair
      obtain ⟨y, hy, -⟩ := h.exists_repo hpair
      simp [hrepo] at hy
    have hnorepo : ¬ ∃ p ∈ shelf.pairs, p.1 = r := by
      rintro ⟨⟨_, v⟩, hpair, rfl⟩
      exact hnone v hpair
    cases shelf.root <;> simp only [if_neg (hnone v), if_neg hnorepo]
  | some x =>
    obtain ⟨root, hset⟩ := h.sound.exists_root hrepo
    rw [← hroot, hset]
    by_cases hv : v ∈ x.revisions
    · have hpair : (r, v) ∈ shelf.pairs := h.has.mp (has_eq_true_iff.mpr ⟨x, hrepo, hv⟩)
      simp [hv, hpair, h.sound.hashed hrepo]
    · obtain ⟨v', hused⟩ := h.used hrepo
      have hrepo' : ∃ p ∈ shelf.pairs, p.1 = r := ⟨_, hused, rfl⟩
      simp only [if_neg hv, if_neg (h.not_mem_of_repo hrepo hv), if_pos hrepo']

/-! ## Adding a pair -/

/-- The tree of the pairs stands where the root could be put. -/
theorem Keeps.layout (h : Keeps d₀ shelf (c, d)) (hset : shelf.root = some root)
    (hplace : d₀.freePlace root = .ok loc) :
    Disk.Layout d₀ loc (Shelf.Lists shelf.pairs) d := by
  obtain ⟨loc', hplace', hlayout⟩ := h.opened hset
  obtain rfl := Except.ok.inj (hplace.symm.trans hplace')
  exact hlayout

/-- What a repository that has been found does not have is no pair. -/
theorem Keeps.not_mem_of_findsRepo (h : Keeps d₀ shelf (c, d))
    (hfinds : FindsRepo Disk.storage root r (c, d) x (c', d')) (hv : v ∉ x.revisions) :
    (r, v) ∉ shelf.pairs := by
  cases hfinds with
  | known hrepo => exact h.not_mem_of_repo hrepo hv
  | opened hnew =>
    intro hpair
    obtain ⟨y, hy, -⟩ := h.exists_repo hpair
    simp [hnew] at hy

/-- When a repository has been found, adding a revision to the record adds the pair. -/
theorem Keeps.has_addRevision_iff (h : Keeps d₀ shelf (c, d)) (hroot : c.root = some root)
    (hfinds : FindsRepo Disk.storage root r (c, d) x (c', d')) {r' v' : String} :
    (c'.addRevision r v).has r' v' = true ↔ (r', v') ∈ insert (r, v) shelf.pairs := by
  obtain ⟨-, -, hrepo⟩ := hfinds.moves hroot
  have hhas : c'.has r' v' = true ↔ (r', v') ∈ shelf.pairs := by
    rw [← h.has]
    cases hfinds with
    | known => rfl
    | opened hnew => rw [has_addRepo hnew]
  rw [has_addRevision hrepo, hhas, Finset.mem_insert, Prod.mk.injEq, or_comm]

/-- Then every recorded repository has a pair. -/
theorem Keeps.used_addRevision (h : Keeps d₀ shelf (c, d))
    (hfinds : FindsRepo Disk.storage root r (c, d) x (c', d')) {r' : String} {y : Repo}
    (hrepo : (c'.addRevision r v).repo? r' = some y) :
    ∃ v', (r', v') ∈ insert (r, v) shelf.pairs := by
  obtain ⟨z, hz⟩ := exists_repo?_of_addRevision hrepo
  by_cases hr : r' = r
  · exact ⟨v, by simp [hr]⟩
  · have hold : c.repo? r' = some z := by
      cases hfinds with
      | known => exact hz
      | opened hnew =>
        rw [repo?_addRepo hnew, if_neg hr] at hz
        exact hz
    obtain ⟨v', hpair⟩ := h.used hold
    exact ⟨v', Finset.mem_insert_of_mem hpair⟩

section Adding

variable (hplace : d₀.freePlace root = .ok loc)
  (hcheck : Disk.checkPath (Path.join root (Sha256.hex r)) = .ok ())
  (hapart : ∀ p ∈ shelf.pairs, Sha256.hex p.1 = Sha256.hex r → p.1 = r)
include hplace hcheck hapart

/-- The directory of a new repository can be made. -/
theorem Keeps.createDir_repo (h : Keeps d₀ shelf (c, d)) (hset : shelf.root = some root)
    (hnew : c.repo? r = none) :
    d.createDir (Path.join root (Sha256.hex r)) = .ok (d.insert (loc ++ [Sha256.hex r]) .dir) := by
  have hlayout := h.layout hset hplace
  have hdir := hlayout.dirAt? hplace (Or.inl rfl)
  refine hlayout.createDir_join hdir (Sha256.isName_hex r) hcheck ?_
  -- a directory with this digest would be that of a recorded repository
  rw [List.nil_append, Shelf.lists_repo_iff]
  rintro ⟨p, hp, hhash⟩
  obtain ⟨x, hrepo, -⟩ := h.exists_repo hp
  rw [hapart p hp hhash.symm, hnew] at hrepo
  cases hrepo

/-- When a repository has been found its directory is there, and nothing else is new. -/
theorem Keeps.layout_of_findsRepo (h : Keeps d₀ shelf (c, d)) (hset : shelf.root = some root)
    (hfinds : FindsRepo Disk.storage root r (c, d) x (c', d')) :
    Disk.Layout d₀ loc
      (fun names => names = [Sha256.hex r] ∨ Shelf.Lists shelf.pairs names) d' := by
  have hlayout := h.layout hset hplace
  cases hfinds with
  | known hrepo =>
    refine hlayout.congr fun names => ⟨Or.inr, ?_⟩
    rintro (rfl | hlisted)
    · obtain ⟨v, hpair⟩ := h.used hrepo
      exact Shelf.lists_repo_iff.mpr ⟨_, hpair, rfl⟩
    · exact hlisted
  | opened hnew hcall =>
    rw [Disk.storage_createDir (h.createDir_repo hplace hcheck hapart hset hnew)] at hcall
    cases hcall
    exact hlayout.insert (Disk.ne_nil_of_freePlace hplace) [Sha256.hex r]

/-- The directory of a new revision can be made when that of its repository is there. -/
theorem createDir_revision (hname : Path.IsName v)
    (hcheckRevision : Disk.checkPath (dirOf root (Sha256.hex r) v) = .ok ())
    (hlayout : Disk.Layout d₀ loc
      (fun names => names = [Sha256.hex r] ∨ Shelf.Lists shelf.pairs names) d')
    (hnew : (r, v) ∉ shelf.pairs) :
    d'.createDir (dirOf root (Sha256.hex r) v) =
      .ok (d'.insert (loc ++ [Sha256.hex r, v]) .dir) := by
  have hroot := hlayout.dirAt? hplace (Or.inr (Or.inl rfl))
  have hrepo : d'.dirAt? (Path.join root (Sha256.hex r)) = some (loc ++ [Sha256.hex r]) :=
    hlayout.dirAt?_join hroot (Sha256.isName_hex r) hcheck (Or.inl rfl)
  refine hlayout.createDir_join hrepo hname hcheckRevision ?_
  rintro (hrepo | hlisted)
  · simp at hrepo
  · obtain ⟨p, hp, hhash, hv⟩ := Shelf.lists_pair_iff.mp hlisted
    have hpair : p = (r, v) := Prod.ext (hapart p hp hhash.symm) hv.symm
    exact hnew (hpair ▸ hp)

end Adding

/-- A revision that is a name can be added while the cache is set up, and this adds the pair. -/
theorem Keeps.add (h : Keeps d₀ shelf (c, d)) (hset : shelf.root = some root)
    (hname : Path.IsName v) (hcheck : Disk.checkPath (dirOf root (Sha256.hex r) v) = .ok ())
    (hapart : ∀ p ∈ shelf.pairs, Sha256.hex p.1 = Sha256.hex r → p.1 = r) :
    (Cache.add Disk.storage r v c d).1 = .ok (dirOf root (Sha256.hex r) v) ∧
      Keeps d₀ { shelf with pairs := insert (r, v) shelf.pairs }
        (Cache.add Disk.storage r v c d).2 := by
  have hroot : c.root = some root := h.root.trans hset
  obtain ⟨loc, hplace, -⟩ := h.opened hset
  have hnonempty : root ≠ "" := by
    obtain ⟨hsound, -⟩ := Disk.freePlace_eq_ok_iff.mp hplace
    exact (Disk.checkPath_eq_ok_iff.mp hsound).2.1
  have hcheckRepo : Disk.checkPath (Path.join root (Sha256.hex r)) = .ok () := by
    refine Disk.checkPath_of_join ?_ hname.isAbsolute hcheck
    exact Path.join_ne_empty hnonempty (Sha256.isName_hex r).isAbsolute
  have hsound : (Cache.add Disk.storage r v c d).2.1.Sound :=
    step_induction (P := fun st => st.1.Sound) (fun _ _ => Move.sound) (.add r v) h.sound
  have hadds := add_spec (s := Disk.storage) r v c d
  generalize Cache.add Disk.storage r v c d = out at hadds hsound ⊢
  -- no call is refused, so the revision is recorded already or gets its directory
  cases hadds with
  | notSetUp hnone => simp [hnone] at hroot
  | noRepo hroot' hnew hcall =>
    obtain rfl := Option.some.inj (hroot.symm.trans hroot')
    rw [Disk.storage_createDir (h.createDir_repo hplace hcheckRepo hapart hset hnew)] at hcall
    cases hcall
  | recorded hroot' hrepo hv =>
    obtain rfl := Option.some.inj (hroot.symm.trans hroot')
    have hpair : (r, v) ∈ shelf.pairs := h.has.mp (has_eq_true_iff.mpr ⟨_, hrepo, hv⟩)
    rw [Finset.insert_eq_self.mpr hpair, h.sound.hashed hrepo]
    exact ⟨rfl, h⟩
  | refused hroot' hfinds hv hcall =>
    obtain rfl := Option.some.inj (hroot.symm.trans hroot')
    have hlayout := h.layout_of_findsRepo hplace hcheckRepo hapart hset hfinds
    have hmade := createDir_revision hplace hcheckRepo hapart hname hcheck hlayout
      (h.not_mem_of_findsRepo hfinds hv)
    rw [hfinds.hash_eq h.sound, Disk.storage_createDir hmade] at hcall
    cases hcall
  | entered hroot' hfinds hv hcall =>
    obtain rfl := Option.some.inj (hroot.symm.trans hroot')
    have hlayout := h.layout_of_findsRepo hplace hcheckRepo hapart hset hfinds
    have hmade := createDir_revision hplace hcheckRepo hapart hname hcheck hlayout
      (h.not_mem_of_findsRepo hfinds hv)
    rw [hfinds.hash_eq h.sound] at hcall ⊢
    rw [Disk.storage_createDir hmade] at hcall
    cases hcall
    obtain ⟨-, hroot'', -⟩ := hfinds.moves hroot
    refine ⟨rfl, hsound, hroot''.trans hset.symm, h.has_addRevision_iff hroot hfinds,
      h.used_addRevision hfinds, ?_, ?_, by simp [hset], ?_⟩
    · intro p q hp hq hhash
      rcases Finset.mem_insert.mp hp with rfl | hp <;> rcases Finset.mem_insert.mp hq with rfl | hq
      · rfl
      · exact (hapart q hq hhash.symm).symm
      · exact hapart p hp hhash
      · exact h.apart hp hq hhash
    · intro p hp
      rcases Finset.mem_insert.mp hp with rfl | hp
      · exact hname
      · exact h.named hp
    · intro root' hroot'
      obtain rfl := Option.some.inj (hset.symm.trans hroot')
      refine ⟨loc, hplace, ?_⟩
      refine (hlayout.insert (Disk.ne_nil_of_freePlace hplace) _).congr fun names => ?_
      exact Shelf.lists_insert.symm

/-! ## Setting up and giving up -/

/-- Setting up a cache that is not set up fails where something is, and succeeds elsewhere. -/
theorem Keeps.setup (h : Keeps d₀ shelf (c, d)) (hclosed : shelf.root = none)
    (hhouses : d₀.houses root = true) :
    (d₀.stands root = true →
      Cache.setup Disk.storage root c d = (.error (.setupFailed root .exists), c, d)) ∧
    (d₀.stands root = false → ∃ d',
      Cache.setup Disk.storage root c d = (.ok (), { root := some root, repos := [] }, d') ∧
        Keeps d₀ { root := some root, pairs := ∅ } ({ root := some root, repos := [] }, d')) := by
  have hroot : c.root = none := h.root.trans hclosed
  have halike := h.closed hclosed
  obtain ⟨loc, hplace⟩ := Disk.exists_freePlace_eq hhouses
  constructor
  · intro hstands
    rw [hstands, if_pos rfl, ← halike.freePlace] at hplace
    have hrefused : d.createDir root = .error .exists := by
      rw [Disk.createDir, hplace]
      rfl
    unfold Cache.setup
    simp [hroot, Disk.storage, hrefused]
  · intro hfree
    rw [hfree, if_neg (by simp)] at hplace
    have hmade : d.createDir root = .ok (d.insert loc .dir) :=
      Disk.createDir_eq_ok_iff.mpr ⟨loc, (halike.freePlace root).trans hplace, rfl⟩
    refine ⟨d.insert loc .dir, ?_, ?_⟩
    · unfold Cache.setup
      simp [hroot, Disk.storage_createDir hmade]
    refine ⟨⟨by simp, by simp [repo?]⟩, rfl, by simp [Cache.has, repo?], by simp [repo?], by simp,
      by simp, by simp, ?_⟩
    rintro root' ⟨⟩
    refine ⟨loc, hplace, halike.here, ?_, ?_⟩
    · intro l houtside
      rw [Disk.get?_insert (Disk.ne_nil_of_freePlace hplace), if_neg, halike.get?]
      rintro rfl
      exact houtside (List.prefix_refl l)
    · intro names e
      rw [Disk.get?_insert (Disk.ne_nil_of_freePlace hplace), halike.get?,
        d₀.get?_below_place hplace (List.prefix_append loc names)]
      simp [Shelf.Lists, eq_comm, and_comm]

/-- Giving up a cache that is set up succeeds, and leaves the disk as it was in the beginning. -/
theorem Keeps.destroy (h : Keeps d₀ shelf (c, d)) (hset : shelf.root = some root) :
    (Cache.destroy Disk.storage c d).1 = .ok () ∧
      Keeps d₀ {} (Cache.destroy Disk.storage c d).2 := by
  obtain ⟨loc, hplace, hlayout⟩ := h.opened hset
  have hne := Disk.ne_nil_of_freePlace hplace
  have hremoved : Disk.storage.removeTree root d = (.ok (), d.erase loc) :=
    Disk.removeTree_of_locate (hlayout.locate hplace (Or.inl rfl) false) hne
  obtain ⟨hstate, hanswer⟩ := destroy_of_root (s := Disk.storage) (h.root.trans hset) d
  rw [hremoved] at hstate hanswer
  rw [hstate, hanswer]
  refine ⟨rfl, sound_empty, rfl, by simp [Cache.has], by simp, by simp, by simp,
    fun _ => ⟨hlayout.here, ?_⟩, by simp⟩
  intro l
  rw [Disk.get?_erase hne]
  by_cases hbelow : loc <+: l
  · rw [if_pos hbelow, d₀.get?_below_place hplace hbelow]
  · rw [if_neg hbelow, hlayout.outside hbelow]

/-! ## Runs -/

/-- One operation is answered as by the set of pairs, and keeps them in agreement. -/
theorem Keeps.step {st : Cache × Disk} (h : Keeps d₀ shelf st) {op : Op}
    (hfits : Shelf.Fits d₀ shelf op) :
    (Cache.step Disk.storage op st).1 = (Shelf.step d₀ op shelf).1 ∧
      Keeps d₀ (Shelf.step d₀ op shelf).2 (Cache.step Disk.storage op st).2 := by
  obtain ⟨c, d⟩ := st
  have hroot : c.root = shelf.root := h.root
  cases op with
  | setup root =>
    cases hset : shelf.root with
    | some root' => simpa [Cache.step, Shelf.step, Cache.setup, hroot, hset] using h
    | none =>
      obtain ⟨htaken, hnew⟩ := h.setup hset (hfits hset)
      cases hstands : d₀.stands root with
      | true => simpa [Cache.step, Shelf.step, hset, hstands, htaken hstands] using h
      | false =>
        obtain ⟨d', hdone, hkeeps⟩ := hnew hstands
        simpa [Cache.step, Shelf.step, hset, hstands, hdone] using hkeeps
  | add r v =>
    cases hset : shelf.root with
    | none => simpa [Cache.step, Shelf.step, Cache.add, hroot, hset] using h
    | some root =>
      obtain ⟨hname, hcheck, hapart⟩ := hfits root hset
      obtain ⟨hanswer, hkeeps⟩ := h.add hset hname hcheck hapart
      simpa [Cache.step, Shelf.step, hset, hanswer] using hkeeps
  | get r v => exact ⟨congrArg Answer.path (h.get_eq r v), h⟩
  | has r v =>
    have hanswer : c.has r v = decide ((r, v) ∈ shelf.pairs) := by
      rw [Bool.eq_iff_iff, decide_eq_true_iff]
      exact h.has
    exact ⟨congrArg Answer.known hanswer, h⟩
  | destroy =>
    cases hset : shelf.root with
    | none => simpa [Cache.step, Shelf.step, Cache.destroy, hroot, hset] using h
    | some root =>
      obtain ⟨hanswer, hkeeps⟩ := h.destroy hset
      simpa [Cache.step, Shelf.step, hset, hanswer] using hkeeps

/-- What is answered to some operations, one after another. -/
def answers {S : Type} (f : Op → S → Answer × S) : List Op → S → List Answer
  | [], _ => []
  | op :: ops, st => (f op st).1 :: answers f ops (f op st).2

/-- A run is answered as by the set of pairs, and keeps them in agreement. -/
theorem Keeps.run {st : Cache × Disk} (h : Keeps d₀ shelf st) {ops : List Op}
    (hops : Shelf.Suits d₀ shelf ops) :
    answers (Cache.step Disk.storage) ops st = answers (Shelf.step d₀) ops shelf ∧
      Keeps d₀ (Shelf.after d₀ ops shelf) (after Disk.storage ops st) := by
  induction ops generalizing shelf st with
  | nil => exact ⟨rfl, h⟩
  | cons op ops ih =>
    obtain ⟨hfits, hrest⟩ := hops
    obtain ⟨hanswer, hkeeps⟩ := h.step hfits
    obtain ⟨hanswers, hfinal⟩ := ih hkeeps hrest
    exact ⟨congrArg₂ List.cons hanswer hanswers, hfinal⟩

/-- The directories of pairs are where their digests and revisions say. -/
theorem Keeps.dirAt?_of_mem {ops : List Op}
    (h : Keeps d₀ shelf (after Disk.storage ops ({}, d₀.toDisk))) (hset : shelf.root = some root)
    (hplace : d₀.freePlace root = .ok loc) {p : String × String} (hp : p ∈ shelf.pairs) :
    (after Disk.storage ops ({}, d₀.toDisk)).2.dirAt? (dirOf root (Sha256.hex p.1) p.2) =
      some (loc ++ [Sha256.hex p.1, p.2]) := by
  rw [after_storage] at h ⊢
  have hlocate := (h.layout hset hplace).locate hplace (Or.inl rfl) true
  obtain ⟨loc', hplaced⟩ :=
    (inPlace_after Disk.Sound.actsOn_storage d₀ ops).placed (h.root.trans hset)
  have hsame := (hplaced.located true).symm.trans hlocate
  obtain rfl : loc' = loc := congrArg Prod.fst (Except.ok.inj hsame)
  obtain ⟨-, hdir⟩ := hplaced.revisions (h.named hp).below? (h.has.mpr hp)
  simpa using hdir.dirAt

/-- A cache is a set of pairs.  On a disk that nobody else changes, where new roots have a directory
to be in, revisions are names and repositories have digests of their own, every operation of a run
is answered as by the set.  While the cache is not set up, nothing is recorded and the disk is as it
was in the beginning.  While it is set up, the disk differs by a tree of directories at a location
that was free: the root, repositories in it, and in these, for each pair, one directory of its own,
to which the path of the pair leads.  Giving up the cache then succeeds and leaves the disk as it
was, and the same root can be set up again, with nothing recorded. -/
theorem run_as_shelf (d₀ : Disk.Sound) {ops : List Op} (hops : Shelf.Suits d₀ {} ops) :
    let st := after Disk.storage ops ({}, d₀.toDisk)
    let shelf := Shelf.after d₀ ops {}
    answers (step Disk.storage) ops ({}, d₀.toDisk) = answers (Shelf.step d₀) ops {} ∧
    (shelf.root = none → st.1 = {} ∧ shelf.pairs = ∅ ∧ d₀.Alike st.2) ∧
    ∀ root, shelf.root = some root → ∃ loc, d₀.get? loc = none ∧ st.2.dirAt? root = some loc ∧
      (∀ l, ¬ loc <+: l → st.2.get? l = d₀.get? l) ∧
      (∀ names e, st.2.get? (loc ++ names) = some e ↔ e = .dir ∧ Shelf.Lists shelf.pairs names) ∧
      (∀ a b, (st.2.get? (loc ++ [a, b])).isSome ↔
        ∃ p ∈ shelf.pairs, a = Sha256.hex p.1 ∧ b = p.2) ∧
      (∀ p ∈ shelf.pairs, st.2.dirAt? (dirOf root (Sha256.hex p.1) p.2) =
        some (loc ++ [Sha256.hex p.1, p.2])) ∧
      (∀ p ∈ shelf.pairs, ∀ q ∈ shelf.pairs,
        loc ++ [Sha256.hex p.1, p.2] = loc ++ [Sha256.hex q.1, q.2] → p = q) ∧
      let gone := step Disk.storage .destroy st
      gone.1 = .done (.ok ()) ∧ d₀.Alike gone.2.2 ∧
      (step Disk.storage (.setup root) gone.2).1 = .done (.ok ()) ∧
      (step Disk.storage (.setup root) gone.2).2.1 = { root := some root, repos := [] } := by
  intro st shelf
  obtain ⟨hanswers, hkeeps⟩ := (keeps_empty d₀).run hops
  have hkeeps : Keeps d₀ shelf st := hkeeps
  refine ⟨hanswers, ?_, ?_⟩
  · intro hclosed
    have hroot : st.1.root = none := hkeeps.root.trans hclosed
    have hrepos := hkeeps.sound.rooted hroot
    have hnone : st.1 = {} := by
      rw [← hroot, ← hrepos]
    refine ⟨hnone, ?_, hkeeps.closed hclosed⟩
    rw [Finset.eq_empty_iff_forall_notMem]
    intro p hp
    have hhas := hkeeps.has.mpr hp
    rw [hnone] at hhas
    cases hhas
  · intro root hset
    obtain ⟨loc, hplace, hlayout⟩ := hkeeps.opened hset
    obtain ⟨hgone, hempty⟩ := hkeeps.destroy hset
    obtain ⟨-, hagain⟩ := hempty.setup rfl (Disk.houses_of_freePlace hplace)
    obtain ⟨d', hdone, -⟩ := hagain (Disk.stands_of_freePlace hplace)
    have hsetup : step Disk.storage (.setup root) (step Disk.storage .destroy st).2 =
        (.done (.ok ()), { root := some root, repos := [] }, d') :=
      congrArg (Prod.map Answer.done id) hdone
    refine ⟨loc, Disk.get?_of_freePlace hplace,
      by simpa using hlayout.dirAt? hplace (Or.inl rfl),
      fun l => hlayout.outside, fun names e => hlayout.inside, ?_,
      fun p => hkeeps.dirAt?_of_mem hset hplace, ?_,
      congrArg Answer.done hgone, hempty.closed rfl, congrArg Prod.fst hsetup,
      congrArg (fun out => out.2.1) hsetup⟩
    · intro a b
      rw [Option.isSome_iff_exists, ← Shelf.lists_pair_iff]
      simp [hlayout.inside]
    · intro p hp q hq hsame
      obtain ⟨hhash, hrevision⟩ : Sha256.hex p.1 = Sha256.hex q.1 ∧ p.2 = q.2 := by
        simpa using hsame
      exact Prod.ext (hkeeps.apart hp hq hhash) hrevision

/-- A cache that is given up and set up again. -/
def twoSetups : List Op :=
  [.setup "c", .add "r" "v1", .destroy, .setup "c", .add "q" "v2"]

/-- In the end the only directory two levels below the root is that of the pair added last. -/
theorem run_as_shelf_after_second_setup :
    Shelf.Suits {} {} twoSetups ∧
    answers (step Disk.storage) twoSetups ({}, {}) = answers (Shelf.step {}) twoSetups {} ∧
    ∃ loc, (after Disk.storage twoSetups ({}, {})).2.dirAt? "c" = some loc ∧
      ∀ a b, ((after Disk.storage twoSetups ({}, {})).2.get? (loc ++ [a, b])).isSome ↔
        a = Sha256.hex "q" ∧ b = "v2" := by
  have hops : Shelf.Suits {} {} twoSetups := by decide +kernel
  have hshelf : Shelf.after {} twoSetups {} = { root := some "c", pairs := {("q", "v2")} } := by
    decide +kernel
  obtain ⟨hanswers, -, hopened⟩ := run_as_shelf .empty hops
  obtain ⟨loc, -, hroot, -, -, hpairs, -⟩ := hopened "c" (congrArg Shelf.root hshelf)
  refine ⟨hops, hanswers, loc, hroot, ?_⟩
  intro a b
  refine (hpairs a b).trans ?_
  rw [show Shelf.after Disk.Sound.empty.toDisk twoSetups {} = _ from hshelf]
  simp

end Cache

end GoSurface
