/-
# Runs of a cache

A cache is used by a sequence of operations, on storage whose calls succeed or fail as they like.
Whatever an operation does, it does in moves of one call each: the root directory is made, a
repository gets its directory, a revision gets its directory, a call is refused, or everything is
forgotten.  What every move keeps holds after every run.

* `Cache.Op`, `Cache.step`, `Cache.after`: operations and runs;
* `Cache.Adds`, `Cache.add_spec`: what adding a revision can do;
* `Cache.Move`, `Cache.after_induction`: the moves, and what they keep;
* `Cache.exists_recording_add`: a recorded revision was recorded by an operation of the run;
* `Cache.record_of_run`: the record agrees with itself and with the directories there are.
-/
import GoSurface.Cache
import GoSurface.Proofs.DiskChanges
import Mathlib.Logic.Relation

namespace GoSurface

namespace Cache

/-! ## Operations -/

/-- What can be asked of a cache. -/
inductive Op where
  | setup (root : String)
  | add (repo revision : String)
  | get (repo revision : String)
  | has (repo revision : String)
  | destroy
deriving DecidableEq

/-- What a cache answers. -/
inductive Answer where
  | done (result : Except CacheError Unit)
  | path (result : Except CacheError String)
  | known (result : Bool)
deriving DecidableEq

section Definitions

variable {σ : Type} (s : Storage σ)

/-- One operation. -/
def step : Op → Cache × σ → Answer × Cache × σ
  | .setup root, (c, w) => ((setup s root c w).map .done id)
  | .add repo revision, (c, w) => ((add s repo revision c w).map .path id)
  | .get repo revision, (c, w) => (.path (c.get repo revision), c, w)
  | .has repo revision, (c, w) => (.known (c.has repo revision), c, w)
  | .destroy, (c, w) => ((destroy s c w).map .done id)

/-- A cache and its storage after some operations. -/
def after (ops : List Op) (st : Cache × σ) : Cache × σ :=
  ops.foldl (fun st op => (step s op st).2) st

/-- Making sure that a repository is recorded: it is, or its directory is made. -/
inductive FindsRepo (root repo : String) : Cache × σ → Repo → Cache × σ → Prop
  | known {c w x} : c.repo? repo = some x → FindsRepo root repo (c, w) x (c, w)
  | opened {c w w'} : c.repo? repo = none →
      s.createDir (Path.join root (Sha256.hex repo)) w = (.ok (), w') →
      FindsRepo root repo (c, w) ⟨Sha256.hex repo, []⟩ (c.addRepo repo (Sha256.hex repo), w')

/-- What adding a revision can do. -/
inductive Adds (repo revision : String) :
    Cache × σ → Except CacheError String × Cache × σ → Prop
  | notSetUp {c w} : c.root = none → Adds repo revision (c, w) (.error .notSetUp, c, w)
  | noRepo {c w w' root fault} : c.root = some root → c.repo? repo = none →
      s.createDir (Path.join root (Sha256.hex repo)) w = (.error fault, w') →
      Adds repo revision (c, w) (.error (.storage fault), c, w')
  | recorded {c w root x} : c.root = some root → c.repo? repo = some x → revision ∈ x.revisions →
      Adds repo revision (c, w) (.ok (dirOf root x.hash revision), c, w)
  | refused {c w c₁ w₁ w₂ root x fault} : c.root = some root →
      FindsRepo s root repo (c, w) x (c₁, w₁) → revision ∉ x.revisions →
      s.createDir (dirOf root x.hash revision) w₁ = (.error fault, w₂) →
      Adds repo revision (c, w) (.error (.storage fault), c₁, w₂)
  | entered {c w c₁ w₁ w₂ root x} : c.root = some root →
      FindsRepo s root repo (c, w) x (c₁, w₁) → revision ∉ x.revisions →
      s.createDir (dirOf root x.hash revision) w₁ = (.ok (), w₂) →
      Adds repo revision (c, w)
        (.ok (dirOf root x.hash revision), c₁.addRevision repo revision, w₂)

/-- What happens to a cache and its storage in one call. -/
inductive Move : Cache × σ → Cache × σ → Prop
  | found {c w w' root} : c.root = none → s.createDir root w = (.ok (), w') →
      Move (c, w) ({ root := some root, repos := [] }, w')
  | openRepo {c w w' root repo} : c.root = some root → c.repo? repo = none →
      s.createDir (Path.join root (Sha256.hex repo)) w = (.ok (), w') →
      Move (c, w) (c.addRepo repo (Sha256.hex repo), w')
  | enter {c w w' root repo revision x} : c.root = some root → c.repo? repo = some x →
      revision ∉ x.revisions → s.createDir (dirOf root x.hash revision) w = (.ok (), w') →
      Move (c, w) (c.addRevision repo revision, w')
  | refuse {c w w' path fault} : s.createDir path w = (.error fault, w') → Move (c, w) (c, w')
  | forget {c w root} : c.root = some root → Move (c, w) ({}, (s.removeTree root w).2)

end Definitions

variable {c c' : Cache} {path repo r revision v p root hash : String} {x : Repo}

/-! ## The record -/

@[simp] theorem repo?_empty : ({} : Cache).repo? r = none := rfl

/-- A repository that is new to the record is found in it afterwards. -/
theorem repo?_addRepo (hnew : c.repo? path = none) :
    (c.addRepo path hash).repo? r = if r = path then some ⟨hash, []⟩ else c.repo? r := by
  rw [repo?, Option.map_eq_none_iff] at hnew
  unfold addRepo repo?
  rw [List.find?_append]
  by_cases hr : r = path
  · simp [hr, hnew]
  · have hother : ¬ path = r := fun h => hr h.symm
    simp [hr, hother]

/-- A new revision belongs to its repository alone. -/
theorem repo?_addRevision :
    (c.addRevision path revision).repo? r =
      if r = path then (c.repo? r).map fun x => { x with revisions := x.revisions ++ [revision] }
      else c.repo? r := by
  unfold addRevision repo?
  induction c.repos with
  | nil => simp
  | cons y ys ih =>
    obtain ⟨q, x⟩ := y
    by_cases hq : q = r
    · subst hq
      by_cases hpath : q = path
      · simp [hpath]
      · simp [hpath]
    · by_cases hpath : q = path
      · subst hpath
        simpa [hq] using ih
      · simpa [hq, hpath] using ih

/-- A new revision brings no new repository. -/
theorem exists_repo?_of_addRevision (h : (c.addRevision path revision).repo? r = some x) :
    ∃ y, c.repo? r = some y := by
  rw [repo?_addRevision] at h
  split at h
  · obtain ⟨y, hy, -⟩ := Option.map_eq_some_iff.mp h
    exact ⟨y, hy⟩
  · exact ⟨x, h⟩

@[simp] theorem root_addRepo : (c.addRepo path hash).root = c.root := rfl

@[simp] theorem root_addRevision : (c.addRevision path revision).root = c.root := rfl

theorem has_eq_true_iff : c.has r v = true ↔ ∃ x, c.repo? r = some x ∧ v ∈ x.revisions := by
  unfold has
  cases c.repo? r <;> simp

/-- A new repository has no revisions. -/
theorem has_addRepo (hnew : c.repo? path = none) : (c.addRepo path hash).has r v = c.has r v := by
  unfold has
  rw [repo?_addRepo hnew]
  by_cases hr : r = path
  · simp [hr, hnew]
  · simp [hr]

/-- A new revision is recorded, and what was recorded stays so. -/
theorem has_addRevision (hrepo : c.repo? path = some x) :
    (c.addRevision path revision).has r v = true ↔
      c.has r v = true ∨ r = path ∧ v = revision := by
  rw [has_eq_true_iff, has_eq_true_iff, repo?_addRevision]
  by_cases hr : r = path
  · simp [hr, hrepo]
  · simp [hr]

/-- The directory of a revision is known if the revision is recorded and the root is set. -/
theorem get_eq_ok_iff :
    c.get r v = .ok p ↔ ∃ root x, c.root = some root ∧ c.repo? r = some x ∧ v ∈ x.revisions ∧
      p = dirOf root x.hash v := by
  unfold get
  cases hrepo : c.repo? r with
  | none => simp
  | some x =>
    by_cases hv : v ∈ x.revisions
    · cases hroot : c.root with
      | none => simp [hv]
      | some root => simp [hv, eq_comm]
    · simp [hv]

/-- A new repository has no directories of revisions. -/
theorem get_addRepo (hnew : c.repo? path = none) :
    (c.addRepo path hash).get r v = .ok p ↔ c.get r v = .ok p := by
  rw [get_eq_ok_iff, get_eq_ok_iff, repo?_addRepo hnew, root_addRepo]
  by_cases hr : r = path
  · simp [hr, hnew]
  · simp [hr]

/-- The directory of a new revision is known, and what was known stays so. -/
theorem get_addRevision (hrepo : c.repo? path = some x) :
    (c.addRevision path revision).get r v = .ok p ↔
      c.get r v = .ok p ∨
        r = path ∧ v = revision ∧ ∃ root, c.root = some root ∧ p = dirOf root x.hash revision := by
  rw [get_eq_ok_iff, get_eq_ok_iff, repo?_addRevision, root_addRevision]
  by_cases hr : r = path
  · subst hr
    rw [if_pos rfl, hrepo, Option.map_some]
    constructor
    · rintro ⟨root, y, hroot, hy, hv, rfl⟩
      obtain rfl := Option.some.inj hy
      rcases List.mem_append.mp hv with hv | hv
      · exact Or.inl ⟨root, x, hroot, rfl, hv, rfl⟩
      · obtain rfl := List.mem_singleton.mp hv
        exact Or.inr ⟨rfl, rfl, root, hroot, rfl⟩
    · rintro (⟨root, y, hroot, hy, hv, rfl⟩ | ⟨-, rfl, root, hroot, rfl⟩)
      · obtain rfl := Option.some.inj hy
        exact ⟨root, _, hroot, rfl, by simp [hv], rfl⟩
      · exact ⟨root, _, hroot, rfl, by simp, rfl⟩
  · simp [hr]

/-- A record that is sound: repositories are below a root, under their digests. -/
structure Sound (c : Cache) : Prop where
  rooted : c.root = none → c.repos = []
  hashed : ∀ {r x}, c.repo? r = some x → x.hash = Sha256.hex r

theorem sound_empty : Sound {} :=
  ⟨fun _ => rfl, by simp⟩

/-- What is recorded in a sound record has a root. -/
theorem Sound.exists_root (h : c.Sound) (hrepo : c.repo? r = some x) :
    ∃ root, c.root = some root := by
  cases hroot : c.root with
  | some root => exact ⟨root, rfl⟩
  | none =>
    unfold repo? at hrepo
    simp [h.rooted hroot] at hrepo

/-- In a sound record the directory of a recorded revision is known, and no other. -/
theorem Sound.get_eq_ok_iff (h : c.Sound) :
    c.get r v = .ok p ↔
      c.has r v = true ∧ ∃ root, c.root = some root ∧ p = dirOf root (Sha256.hex r) v := by
  rw [Cache.get_eq_ok_iff, has_eq_true_iff]
  constructor
  · rintro ⟨root, x, hroot, hrepo, hv, rfl⟩
    exact ⟨⟨x, hrepo, hv⟩, root, hroot, by rw [h.hashed hrepo]⟩
  · rintro ⟨⟨x, hrepo, hv⟩, root, hroot, rfl⟩
    exact ⟨root, x, hroot, hrepo, hv, by rw [h.hashed hrepo]⟩

theorem Sound.has_iff_get (h : c.Sound) : c.has r v = true ↔ ∃ p, c.get r v = .ok p := by
  constructor
  · intro hhas
    obtain ⟨x, hrepo, -⟩ := has_eq_true_iff.mp hhas
    obtain ⟨root, hroot⟩ := h.exists_root hrepo
    exact ⟨_, h.get_eq_ok_iff.mpr ⟨hhas, root, hroot, rfl⟩⟩
  · rintro ⟨p, hget⟩
    exact (h.get_eq_ok_iff.mp hget).1

/-- In a sound record, what is not found is not recorded; that the root is not set is never the
reason. -/
theorem Sound.get_ne_notSetUp (h : c.Sound) : c.get r v ≠ .error .notSetUp := by
  unfold get
  cases hrepo : c.repo? r with
  | none => simp
  | some x =>
    obtain ⟨root, hroot⟩ := h.exists_root hrepo
    by_cases hv : v ∈ x.revisions <;> simp [hv, hroot]

section Runs

variable {σ : Type} {s : Storage σ} {st st' : Cache × σ} {ops : List Op} {op : Op} {w w' : σ}

@[simp] theorem after_nil : after s [] st = st := rfl

theorem after_append (ops' : List Op) : after s (ops ++ ops') st = after s ops' (after s ops st) :=
  List.foldl_append

theorem after_concat : after s (ops ++ [op]) st = (step s op (after s ops st)).2 := by
  rw [after_append]
  rfl

/-! ## Adding a revision -/

/-- Adding a revision does nothing else. -/
theorem add_spec (repo revision : String) (c : Cache) (w : σ) :
    Adds s repo revision (c, w) (add s repo revision c w) := by
  unfold add ensureRepo
  cases hroot : c.root with
  | none => exact .notSetUp hroot
  | some root =>
    cases hrepo : c.repo? repo with
    | some x =>
      by_cases hv : revision ∈ x.revisions
      · simpa [hv] using Adds.recorded hroot hrepo hv
      · rcases hcall : s.createDir (dirOf root x.hash revision) w with ⟨fault | _, w₂⟩
        · simpa [hv, hcall] using Adds.refused hroot (.known hrepo) hv hcall
        · simpa [hv, hcall] using Adds.entered hroot (.known hrepo) hv hcall
    | none =>
      rcases hopen : s.createDir (Path.join root (Sha256.hex repo)) w with ⟨fault | _, w₁⟩
      · simpa [hopen] using Adds.noRepo hroot hrepo hopen
      · have hfinds := FindsRepo.opened hrepo hopen
        rcases hcall : s.createDir (dirOf root (Sha256.hex repo) revision) w₁ with ⟨fault | _, w₂⟩
        · simpa [hopen, hcall] using Adds.refused hroot hfinds (by simp) hcall
        · simpa [hopen, hcall] using Adds.entered hroot hfinds (by simp) hcall

/-! ## Moves -/

open Relation (ReflTransGen)

/-- Finding a repository takes one move or none, and then it is recorded. -/
theorem FindsRepo.moves (hroot : c.root = some root)
    (h : FindsRepo s root repo (c, w) x (c', w')) :
    ReflTransGen (Move s) (c, w) (c', w') ∧ c'.root = some root ∧ c'.repo? repo = some x := by
  cases h with
  | known hrepo => exact ⟨.refl, hroot, hrepo⟩
  | opened hnew hcall =>
    exact ⟨.single (.openRepo hroot hnew hcall), hroot, by rw [repo?_addRepo hnew, if_pos rfl]⟩

/-- Adding a revision is a sequence of moves. -/
theorem Adds.moves {out : Except CacheError String × Cache × σ}
    (h : Adds s repo revision (c, w) out) : ReflTransGen (Move s) (c, w) out.2 := by
  cases h with
  | notSetUp => exact .refl
  | noRepo _ _ hcall => exact .single (.refuse hcall)
  | recorded => exact .refl
  | refused hroot hfinds _ hcall =>
    obtain ⟨hmoves, -, -⟩ := hfinds.moves hroot
    exact hmoves.tail (.refuse hcall)
  | entered hroot hfinds hnew hcall =>
    obtain ⟨hmoves, hroot, hrepo⟩ := hfinds.moves hroot
    exact hmoves.tail (.enter hroot hrepo hnew hcall)

/-- Setting up takes one move, unless the cache is set up. -/
theorem setup_moves (root : String) (c : Cache) (w : σ) :
    ReflTransGen (Move s) (c, w) (setup s root c w).2 := by
  unfold setup
  cases hroot : c.root with
  | some _ => exact .refl
  | none =>
    rcases hcall : s.createDir root w with ⟨fault | _, w'⟩
    · exact .single (.refuse hcall)
    · exact .single (.found hroot hcall)

/-- Giving up a cache forgets everything, whether or not its tree can be removed. -/
theorem destroy_of_root (hroot : c.root = some root) (w : σ) :
    (destroy s c w).2 = ({}, (s.removeTree root w).2) ∧
      (destroy s c w).1 = (s.removeTree root w).1.mapError .storage := by
  unfold destroy
  rw [hroot]
  rcases hcall : s.removeTree root w with ⟨fault | _, w'⟩
  · simp [hcall, Except.mapError]
  · simp [hcall, Except.mapError]

theorem destroy_moves (c : Cache) (w : σ) :
    ReflTransGen (Move s) (c, w) (destroy s c w).2 := by
  cases hroot : c.root with
  | none =>
    unfold destroy
    rw [hroot]
  | some root =>
    rw [(destroy_of_root hroot w).1]
    exact .single (.forget hroot)

/-- Every operation is a sequence of moves. -/
theorem step_moves (s : Storage σ) (op : Op) (st : Cache × σ) :
    ReflTransGen (Move s) st (step s op st).2 := by
  obtain ⟨c, w⟩ := st
  cases op with
  | setup root => exact setup_moves root c w
  | add repo revision => exact (add_spec repo revision c w).moves
  | get repo revision => exact .refl
  | has repo revision => exact .refl
  | destroy => exact destroy_moves c w

/-- What every move keeps is kept by every operation. -/
theorem step_induction {P : Cache × σ → Prop} (hmove : ∀ st st', Move s st st' → P st → P st')
    (op : Op) (hst : P st) : P (step s op st).2 := by
  have hmoves : ∀ {st'}, ReflTransGen (Move s) st st' → P st' := by
    intro st' hmoves
    induction hmoves with
    | refl => exact hst
    | tail _ hlast ih => exact hmove _ _ hlast ih
  exact hmoves (step_moves s op st)

/-- What every move keeps is kept by every run. -/
theorem after_induction {P : Cache × σ → Prop} (hmove : ∀ st st', Move s st st' → P st → P st')
    (ops : List Op) (hst : P st) : P (after s ops st) := by
  induction ops using List.reverseRecOn with
  | nil => exact hst
  | append_singleton ops op ih =>
    rw [after_concat]
    exact step_induction hmove op ih

/-! ## What runs keep -/

/-- Moves keep the record sound. -/
theorem Move.sound (h : Move s st st') (hsound : st.1.Sound) : st'.1.Sound := by
  cases h with
  | found => exact ⟨by simp, by simp [repo?]⟩
  | openRepo hroot hnew =>
    refine ⟨by simp [hroot], ?_⟩
    intro r x hrepo
    rw [repo?_addRepo hnew] at hrepo
    split at hrepo
    · next hr =>
      cases hrepo
      rw [hr]
    · exact hsound.hashed hrepo
  | enter hroot =>
    refine ⟨by simp [hroot], ?_⟩
    intro r x hrepo
    rw [repo?_addRevision] at hrepo
    split at hrepo
    · obtain ⟨y, hy, rfl⟩ := Option.map_eq_some_iff.mp hrepo
      show y.hash = Sha256.hex r
      exact hsound.hashed hy
    · exact hsound.hashed hrepo
  | refuse => exact hsound
  | forget => exact sound_empty

theorem sound_after (s : Storage σ) (ops : List Op) (w : σ) : (after s ops ({}, w)).1.Sound :=
  after_induction (P := fun st => st.1.Sound) (fun _ _ => Move.sound) ops sound_empty

/-- Finding a repository makes no revision known. -/
theorem FindsRepo.get_iff (h : FindsRepo s root repo (c, w) x (c', w')) :
    c'.get r v = .ok p ↔ c.get r v = .ok p := by
  cases h with
  | known => rfl
  | opened hnew => exact get_addRepo hnew

/-- A repository that has been found is recorded under its digest. -/
theorem FindsRepo.hash_eq (h : FindsRepo s root repo (c, w) x (c', w')) (hsound : c.Sound) :
    x.hash = Sha256.hex repo := by
  cases h with
  | known hrepo => exact hsound.hashed hrepo
  | opened => rfl

/-- A directory that is known after adding was known before, or is that of the revision added. -/
theorem Adds.get_cases {out : Except CacheError String × Cache × σ}
    (h : Adds s repo revision (c, w) out) (hget : out.2.1.get r v = .ok p) :
    c.get r v = .ok p ∨ repo = r ∧ revision = v ∧ c.has r v = false ∧ out.1 = .ok p := by
  cases h with
  | notSetUp => exact Or.inl hget
  | noRepo => exact Or.inl hget
  | recorded => exact Or.inl hget
  | refused _ hfinds => exact Or.inl (hfinds.get_iff.mp hget)
  | entered hroot hfinds hnew =>
    obtain ⟨-, hroot', hrepo⟩ := hfinds.moves hroot
    rcases (get_addRevision hrepo).mp hget with hknown | ⟨rfl, rfl, root', hroot'', rfl⟩
    · exact Or.inl (hfinds.get_iff.mp hknown)
    · obtain rfl := Option.some.inj (hroot'.symm.trans hroot'')
      refine Or.inr ⟨rfl, rfl, ?_, rfl⟩
      -- it was not recorded before: its repository was new, or did not have it
      rw [← Bool.not_eq_true, has_eq_true_iff]
      rintro ⟨y, hy, hv⟩
      cases hfinds with
      | known hx =>
        obtain rfl := Option.some.inj (hx.symm.trans hy)
        exact hnew hv
      | opened hnone => simp [hnone] at hy

/-- A directory that adding answers is known afterwards. -/
theorem Adds.get_of_ok {out : Except CacheError String × Cache × σ}
    (h : Adds s repo revision (c, w) out) (hout : out.1 = .ok p) :
    out.2.1.get repo revision = .ok p := by
  cases h with
  | notSetUp => cases hout
  | noRepo => cases hout
  | recorded hroot hrepo hv =>
    cases hout
    exact get_eq_ok_iff.mpr ⟨_, _, hroot, hrepo, hv, rfl⟩
  | refused => cases hout
  | entered hroot hfinds =>
    cases hout
    obtain ⟨-, hroot, hrepo⟩ := hfinds.moves hroot
    exact (get_addRevision hrepo).mpr (Or.inr ⟨rfl, rfl, _, hroot, rfl⟩)

/-- A directory that is known after an operation was known before, or the operation added it. -/
theorem step_get_cases (hget : (step s op st).2.1.get r v = .ok p) :
    st.1.get r v = .ok p ∨
      op = .add r v ∧ st.1.has r v = false ∧ (step s op st).1 = .path (.ok p) := by
  obtain ⟨c, w⟩ := st
  have hempty : ∀ root, ({ root := root } : Cache).get r v ≠ .ok p := by
    intro root
    simp [get, repo?]
  cases op with
  | setup root =>
    have hget : (setup s root c w).2.1.get r v = .ok p := hget
    unfold setup at hget
    cases hroot : c.root with
    | some _ => exact Or.inl (by simpa [hroot] using hget)
    | none =>
      rcases hcall : s.createDir root w with ⟨fault | _, w'⟩
      · exact Or.inl (by simpa [hroot, hcall] using hget)
      · exact absurd (by simpa [hroot, hcall] using hget) (hempty (some root))
  | add repo revision =>
    rcases (add_spec (s := s) repo revision c w).get_cases hget with hknown | ⟨rfl, rfl, hnew, hout⟩
    · exact Or.inl hknown
    · exact Or.inr ⟨rfl, hnew, congrArg Answer.path hout⟩
  | get repo revision => exact Or.inl hget
  | has repo revision => exact Or.inl hget
  | destroy =>
    cases hroot : c.root with
    | none =>
      have hsame : (destroy s c w).2 = (c, w) := by
        unfold destroy
        rw [hroot]
      exact Or.inl (by simpa [step, hsame] using hget)
    | some root =>
      have hget : (destroy s c w).2.1.get r v = .ok p := hget
      rw [(destroy_of_root hroot w).1] at hget
      exact absurd hget (hempty none)

/-- A directory that is known after a run was recorded by an operation of the run, and has been
known ever since. -/
theorem exists_recording_add (hget : (after s ops ({}, w)).1.get r v = .ok p) :
    ∃ before later, ops = before ++ .add r v :: later ∧
      (after s before ({}, w)).1.has r v = false ∧
      (step s (.add r v) (after s before ({}, w))).1 = .path (.ok p) ∧
      ∀ done rest, later = done ++ rest →
        (after s (before ++ .add r v :: done) ({}, w)).1.get r v = .ok p := by
  induction ops using List.reverseRecOn with
  | nil => simp [get] at hget
  | append_singleton ops op ih =>
    have hlast := hget
    rw [after_concat] at hget
    rcases step_get_cases hget with hknown | ⟨rfl, hnew, hanswer⟩
    · obtain ⟨before, later, rfl, hnew, hanswer, hsince⟩ := ih hknown
      refine ⟨before, later ++ [op], by simp, hnew, hanswer, ?_⟩
      intro done rest hsplit
      -- either all later operations are done, or the last one is among the rest
      rcases List.eq_nil_or_concat' rest with rfl | ⟨rest, _, rfl⟩
      · rw [List.append_nil] at hsplit
        simpa [← hsplit] using hlast
      · rw [← List.append_assoc] at hsplit
        exact hsince done rest (List.append_inj' hsplit rfl).1
    · refine ⟨ops, [], rfl, hnew, hanswer, ?_⟩
      intro done rest hsplit
      obtain ⟨rfl, rfl⟩ := List.append_eq_nil_iff.mp hsplit.symm
      exact hlast

/-- Adding a revision that is recorded makes no call and changes nothing. -/
theorem add_of_get (hget : c.get r v = .ok p) (w : σ) : add s r v c w = (.ok p, c, w) := by
  obtain ⟨root, x, hroot, hrepo, hv, rfl⟩ := get_eq_ok_iff.mp hget
  simp [add, ensureRepo, hroot, hrepo, hv]

/-- After giving up a cache nothing is recorded. -/
theorem has_destroy (hset : (destroy s c w).1 ≠ .error .notSetUp) :
    (destroy s c w).2.1.has r v = false := by
  cases hroot : c.root with
  | none =>
    unfold destroy at hset
    simp [hroot] at hset
  | some root =>
    rw [(destroy_of_root hroot w).1]
    rfl

end Runs

end Cache

/-! ## Directories -/

/-- Storage that makes directories on a disk which nobody else changes: a call that succeeds makes
the directory, and one that is refused changes nothing.  Removing a tree may leave anything. -/
structure Storage.MakesDirs {σ : Type} (s : Storage σ) (disk : σ → Disk) : Prop where
  made : ∀ {path w w'}, s.createDir path w = (.ok (), w') →
    (disk w).createDir path = .ok (disk w')
  refused : ∀ {path w fault w'}, s.createDir path w = (.error fault, w') → disk w' = disk w

namespace Cache

section Directories

variable {σ : Type} {s : Storage σ} {st st' : Cache × σ} {disk : σ → Disk}

/-- Every known directory is on the disk. -/
def Stocked (disk : σ → Disk) (st : Cache × σ) : Prop :=
  ∀ r v p, st.1.get r v = .ok p → ((disk st.2).dirAt? p).isSome

/-- Known directories stay on a disk that only gets more. -/
theorem Stocked.mono (hst : Stocked disk st) {w : σ} (hext : (disk st.2).Extends (disk w))
    {r v p : String} (hget : st.1.get r v = .ok p) : ((disk w).dirAt? p).isSome := by
  obtain ⟨loc, hloc⟩ := Option.isSome_iff_exists.mp (hst r v p hget)
  rw [hext.dirAt? hloc]
  rfl

/-- A move that makes a revision known makes its directory first. -/
theorem Move.stocked (hs : s.MakesDirs disk) (h : Move s st st') (hst : Stocked disk st) :
    Stocked disk st' := by
  intro r v p hget
  cases h with
  | found => simp [get, repo?] at hget
  | openRepo _ hnew hcall =>
    have hext := Disk.extends_of_createDir (hs.made hcall)
    exact hst.mono hext ((get_addRepo hnew).mp hget)
  | enter hroot hrepo _ hcall =>
    rcases (get_addRevision hrepo).mp hget with hknown | ⟨-, -, root', hroot', rfl⟩
    · exact hst.mono (Disk.extends_of_createDir (hs.made hcall)) hknown
    · obtain rfl := Option.some.inj (hroot.symm.trans hroot')
      obtain ⟨place, -, -, hlocate⟩ := Disk.exists_place_of_createDir (hs.made hcall)
      rw [Disk.dirAt?_eq_some_iff.mpr (hlocate true)]
      rfl
  | refuse hcall =>
    have hsame := hs.refused hcall
    exact hst.mono (hsame ▸ Disk.Extends.refl _) hget
  | forget => simp [get] at hget

/-- After every run, on storage whose calls succeed or fail at will: repositories are recorded only
below a root.  A revision is recorded if and only if its directory is known, and not finding it is
never for want of a root.  A known directory is the answer of the operation that recorded the
revision.  Ever since, it has been known and has been the answer to adding the revision again, which
makes no call to any storage.  Giving up the cache leaves nothing recorded.  And if the storage
makes directories on a disk that nobody else changes, known directories exist. -/
theorem record_of_run (s : Storage σ) (w : σ) (ops : List Op) :
    let st := after s ops ({}, w)
    (st.1.repos ≠ [] → ∃ root, st.1.root = some root) ∧
    (∀ r v, st.1.has r v = true ↔ ∃ p, st.1.get r v = .ok p) ∧
    (∀ r v, st.1.get r v ≠ .error .notSetUp) ∧
    (∀ r v p, st.1.get r v = .ok p → ∃ before later, ops = before ++ .add r v :: later ∧
      (after s before ({}, w)).1.has r v = false ∧
      (step s (.add r v) (after s before ({}, w))).1 = .path (.ok p) ∧
      ∀ done rest, later = done ++ rest →
        let c := (after s (before ++ .add r v :: done) ({}, w)).1
        c.get r v = .ok p ∧
          ∀ (τ : Type) (t : Storage τ) (u : τ), add t r v c u = (.ok p, c, u)) ∧
    ((destroy s st.1 st.2).1 ≠ .error .notSetUp →
      ∀ r v, (destroy s st.1 st.2).2.1.has r v = false) ∧
    ∀ disk : σ → Disk, s.MakesDirs disk →
      ∀ r v, st.1.has r v = true →
        ∃ p, st.1.get r v = .ok p ∧ ((disk st.2).dirAt? p).isSome := by
  intro st
  have hsound : st.1.Sound := sound_after s ops w
  refine ⟨?_, fun r v => hsound.has_iff_get, fun r v => hsound.get_ne_notSetUp, ?_,
    fun hset r v => has_destroy hset, ?_⟩
  · intro hrepos
    by_contra hnone
    exact hrepos (hsound.rooted (by simpa [Option.eq_none_iff_forall_ne_some] using hnone))
  · intro r v p hget
    obtain ⟨before, later, hops, hnew, hanswer, hsince⟩ := exists_recording_add hget
    refine ⟨before, later, hops, hnew, hanswer, ?_⟩
    intro done rest hlater
    have hknown := hsince done rest hlater
    exact ⟨hknown, fun τ t u => add_of_get hknown u⟩
  · intro disk hs r v hhas
    have hstocked : Stocked disk st :=
      after_induction (fun _ _ => Move.stocked hs) ops (by intro r v p hget; simp [get] at hget)
    obtain ⟨p, hget⟩ := hsound.has_iff_get.mp hhas
    exact ⟨p, hget, hstocked r v p hget⟩

end Directories

/-- A disk whose calls fail by plan; each call takes an entry of the plan, and after its end none
fails for that reason. -/
def flaky : Storage (Disk × List (Option Fault)) where
  createDir path := fun (d, plan) =>
    match plan.head?.join, d.createDir path with
    | none, .ok d' => (.ok (), d', plan.tail)
    | none, .error fault => (.error fault, d, plan.tail)
    | some fault, _ => (.error fault, d, plan.tail)
  removeTree path := fun (d, plan) =>
    match plan.head?.join with
    | none => ((d.removeTree path).1, (d.removeTree path).2, plan.tail)
    | some fault => (.error fault, d, plan.tail)

theorem makesDirs_flaky : flaky.MakesDirs Prod.fst := by
  constructor
  · rintro path ⟨d, plan⟩ ⟨d', plan'⟩ hcall
    unfold flaky at hcall
    cases hplan : plan.head?.join <;> cases hmade : d.createDir path <;>
      simp_all
  · rintro path ⟨d, plan⟩ fault ⟨d', plan'⟩ hcall
    unfold flaky at hcall
    cases hplan : plan.head?.join <;> cases hmade : d.createDir path <;>
      simp_all

/-- A revision is added twice, since the first time its directory cannot be made. -/
def retriedAdd : List Op :=
  [.setup "cache", .add "repo" "v1", .add "repo" "v1"]

/-- The third call fails. -/
def thirdFails : List (Option Fault) :=
  [none, none, some (.other "No space left on device (os error 28)")]

/-- The revision whose directory could not be made at first is recorded by the second attempt, and
its directory is there. -/
theorem record_of_run_after_failed_call :
    ∃ p, (after flaky retriedAdd ({}, {}, thirdFails)).1.get "repo" "v1" = .ok p ∧
      ((after flaky retriedAdd ({}, {}, thirdFails)).2.1.dirAt? p).isSome ∧
      ∃ before later, retriedAdd = before ++ .add "repo" "v1" :: later ∧
        (after flaky before ({}, {}, thirdFails)).1.has "repo" "v1" = false ∧
        (step flaky (.add "repo" "v1") (after flaky before ({}, {}, thirdFails))).1 =
          .path (.ok p) := by
  have hhas : (after flaky retriedAdd ({}, {}, thirdFails)).1.has "repo" "v1" = true := by
    decide +kernel
  obtain ⟨-, -, -, hknown, -, hdirs⟩ := record_of_run flaky ({}, thirdFails) retriedAdd
  obtain ⟨p, hget, hdir⟩ := hdirs Prod.fst makesDirs_flaky _ _ hhas
  obtain ⟨before, later, hops, hnew, hanswer, -⟩ := hknown _ _ _ hget
  exact ⟨p, hget, hdir, before, later, hops, hnew, hanswer⟩

end Cache

end GoSurface
