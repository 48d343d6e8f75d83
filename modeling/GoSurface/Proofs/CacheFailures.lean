/-
# What a failed operation leaves behind

Setting up a cache and adding a revision may fail at any call to the storage.  A failed setup leaves
the cache as it was.  A failed addition loses and invents nothing: at most it leaves a repository
without revisions, whose directory it has made.  Later additions to that repository go on from
there, and ask the storage for the directory of their revision only.

* `Storage.logging`: storage that notes the directories it is asked for;
* `Cache.Adds.of_error`: what a failed addition leaves in the record;
* `Cache.add_eq_ensureRepo`: a failed addition does no more than look after the repository;
* `Cache.asked_add`: what an addition to a recorded repository asks for;
* `Cache.record_of_failure`: failures lose and invent nothing.
-/
import GoSurface.Proofs.CacheRuns

namespace GoSurface

/-- Storage that notes the directories it is asked to create. -/
def Storage.logging {σ : Type} (s : Storage σ) : Storage (σ × List String) where
  createDir path := fun (w, asked) =>
    ((s.createDir path w).1, (s.createDir path w).2, asked ++ [path])
  removeTree path := fun (w, asked) =>
    ((s.removeTree path w).1, (s.removeTree path w).2, asked)

namespace Cache

variable {σ : Type} {s : Storage σ} {c c' : Cache} {w w' : σ} {r v root : String} {x : Repo}

/-! ## Setting up -/

/-- A cache that could not be set up is what it was. -/
theorem setup_of_error {e : CacheError} (h : (setup s root c w).1 = .error e) :
    (setup s root c w).2.1 = c := by
  unfold setup at h ⊢
  cases hroot : c.root with
  | some _ => rfl
  | none =>
    rcases hcall : s.createDir root w with ⟨fault | _, w'⟩
    · rfl
    · simp [hroot, hcall] at h

/-! ## Adding -/

/-- The record holds a new repository without revisions, whose directory has been made. -/
def OpenedOnly (s : Storage σ) (w : σ) (r : String) (c c' : Cache) : Prop :=
  c.repo? r = none ∧ c' = c.addRepo r (Sha256.hex r) ∧
    ∃ root w₁, c.root = some root ∧
      s.createDir (Path.join root (Sha256.hex r)) w = (.ok (), w₁)

/-- Looking for a repository leaves the record as it was, or opens the repository only. -/
theorem FindsRepo.unchanged_or_opened (hroot : c.root = some root)
    (h : FindsRepo s root r (c, w) x (c', w')) : c' = c ∨ OpenedOnly s w r c c' := by
  cases h with
  | known => exact Or.inl rfl
  | opened hnew hcall => exact Or.inr ⟨hnew, rfl, root, w', hroot, hcall⟩

/-- A failed addition leaves the record as it was, or opens the repository only. -/
theorem Adds.of_error {out : Except CacheError String × Cache × σ} {e : CacheError}
    (h : Adds s r v (c, w) out) (herror : out.1 = .error e) :
    out.2.1 = c ∨ OpenedOnly s w r c out.2.1 := by
  cases h with
  | notSetUp => exact Or.inl rfl
  | noRepo => exact Or.inl rfl
  | recorded => cases herror
  | refused hroot hfinds => exact hfinds.unchanged_or_opened hroot
  | entered => cases herror

/-- A revision that could not be added is not recorded, in a cache whose record is sound. -/
theorem Adds.has_of_error {out : Except CacheError String × Cache × σ} {e : CacheError}
    (h : Adds s r v (c, w) out) (hsound : c.Sound) (herror : out.1 = .error e) :
    out.2.1.has r v = false := by
  have hnone : ∀ {c : Cache}, c.repo? r = none → c.has r v = false := by
    intro c hrepo
    rw [has, hrepo]
  cases h with
  | notSetUp hroot =>
    apply hnone
    rw [repo?, hsound.rooted hroot]
    rfl
  | noRepo _ hrepo => exact hnone hrepo
  | recorded => cases herror
  | refused hroot hfinds hnew =>
    obtain ⟨-, -, hrepo⟩ := hfinds.moves hroot
    show Cache.has _ r v = false
    rw [has, hrepo]
    exact decide_eq_false hnew
  | entered => cases herror

/-- Looking for a repository is what making sure of it does when it succeeds. -/
theorem FindsRepo.ensureRepo_eq (h : FindsRepo s root r (c, w) x (c', w')) :
    ensureRepo s root r c w = (.ok x, c', w') := by
  cases h with
  | known hrepo => simp [ensureRepo, hrepo]
  | opened hnew hcall => simp [ensureRepo, hnew, hcall]

/-- If the directory of a new repository cannot be made, the record stays as it was. -/
theorem ensureRepo_of_refused {fault : Fault} (hnew : c.repo? r = none)
    (hcall : s.createDir (Path.join root (Sha256.hex r)) w = (.error fault, w')) :
    ensureRepo s root r c w = (.error fault, c, w') := by
  simp [ensureRepo, hnew, hcall]

/-- A failed addition does no more to the record than making sure of the repository does, and no
more to a disk on which refused calls change nothing. -/
theorem add_eq_ensureRepo (hroot : c.root = some root) {e : CacheError}
    (herror : (add s r v c w).1 = .error e) :
    (add s r v c w).2.1 = (ensureRepo s root r c w).2.1 ∧
      ∀ disk : σ → Disk, s.MakesDirs disk →
        disk (add s r v c w).2.2 = disk (ensureRepo s root r c w).2.2 := by
  have hadds := add_spec (s := s) r v c w
  generalize add s r v c w = out at hadds herror ⊢
  cases hadds with
  | notSetUp hnone =>
    rw [hroot] at hnone
    cases hnone
  | noRepo hroot' hrepo hcall =>
    obtain rfl := Option.some.inj (hroot.symm.trans hroot')
    rw [ensureRepo_of_refused hrepo hcall]
    exact ⟨rfl, fun _ _ => rfl⟩
  | recorded => cases herror
  | refused hroot' hfinds _ hcall =>
    obtain rfl := Option.some.inj (hroot.symm.trans hroot')
    rw [hfinds.ensureRepo_eq]
    exact ⟨rfl, fun disk hs => hs.refused hcall⟩
  | entered => cases herror

/-- An addition to a recorded repository asks for the directory of its revision, unless it is
recorded, and for nothing else. -/
theorem asked_add {ρ : Type} (t : Storage ρ) (z : ρ) (hroot : c.root = some root)
    (hrepo : c.repo? r = some x) (v : String) :
    (add t.logging r v c (z, [])).2.2.2 =
      if c.has r v then [] else [dirOf root x.hash v] := by
  have hhas : c.has r v = decide (v ∈ x.revisions) := by rw [has, hrepo]
  rw [hhas]
  by_cases hv : v ∈ x.revisions
  · simp [add, ensureRepo, hroot, hrepo, hv]
  · rcases hcall : t.createDir (dirOf root x.hash v) z with ⟨fault | _, z'⟩ <;>
      simp [add, ensureRepo, hroot, hrepo, hv, Storage.logging, hcall]

/-- **Failures lose and invent nothing.**  Take any cache that operations have led to, on whatever
storage, and let any call fail from now on.  A failed setup leaves the cache as it was.  After a
failed addition all answers about recorded revisions are what they were, the revision is not
recorded, and the record is what it was or has one more repository, without revisions, whose
directory was made in the same operation.  To the record, and to a disk on which refused calls
change nothing, the failed addition did no more than making sure of the repository does.  If the
repository is recorded then, a later addition to it asks the storage, whatever that is by then, for
the directory of its own revision at most, and not again for that of the repository. -/
theorem record_of_failure {τ σ : Type} (t : Storage τ) (u : τ) (ops : List Op) (s : Storage σ)
    (w : σ) :
    let c := (after t ops ({}, u)).1
    (∀ root e, (setup s root c w).1 = .error e → (setup s root c w).2.1 = c) ∧
    ∀ r v e, (add s r v c w).1 = .error e →
      let c' := (add s r v c w).2.1
      (∀ r' v', c'.has r' v' = c.has r' v') ∧
      (∀ r' v' p, c.get r' v' = .ok p → c'.get r' v' = .ok p) ∧
      c'.has r v = false ∧
      (c' = c ∨ OpenedOnly s w r c c') ∧
      (∀ root, c.root = some root →
        c' = (ensureRepo s root r c w).2.1 ∧
        (∀ disk : σ → Disk, s.MakesDirs disk →
          disk (add s r v c w).2.2 = disk (ensureRepo s root r c w).2.2) ∧
        ∀ x, c'.repo? r = some x → ∀ (ρ : Type) (later : Storage ρ) (z : ρ) (v' : String),
          (add later.logging r v' c' (z, [])).2.2.2 =
            if c.has r v' then [] else [dirOf root x.hash v']) := by
  intro c
  have hsound : c.Sound := sound_after t ops u
  refine ⟨fun root e herror => setup_of_error herror, ?_⟩
  intro r v e herror c'
  have hadds := add_spec (s := s) r v c w
  have hrecord : c' = c ∨ OpenedOnly s w r c c' := hadds.of_error herror
  have hhas : ∀ r' v', c'.has r' v' = c.has r' v' := by
    intro r' v'
    rcases hrecord with hsame | ⟨hnew, hopened, -⟩
    · rw [hsame]
    · rw [hopened, has_addRepo hnew]
  have hget : ∀ r' v' p, c.get r' v' = .ok p → c'.get r' v' = .ok p := by
    intro r' v' p hknown
    rcases hrecord with hsame | ⟨hnew, hopened, -⟩
    · rw [hsame]
      exact hknown
    · rw [hopened]
      exact (get_addRepo hnew).mpr hknown
  have hrooted : c'.root = c.root := by
    rcases hrecord with hsame | ⟨-, hopened, -⟩
    · rw [hsame]
    · rw [hopened, root_addRepo]
  refine ⟨hhas, hget, hadds.has_of_error hsound herror, hrecord, ?_⟩
  intro root hroot
  obtain ⟨hensure, hdisk⟩ := add_eq_ensureRepo hroot herror
  refine ⟨hensure, hdisk, ?_⟩
  intro x hrepo ρ later z v'
  rw [asked_add later z (hrooted.trans hroot) hrepo, hhas]

/-- The revision `a/b` has no place, as there is no directory `a`.  Its repository has been opened
all the same, and when `v1` is added, only the directory of `v1` is asked for. -/
theorem record_of_failure_missing_parent :
    let fresh := after Disk.storage [.setup "cache"] ({}, {})
    let failed := add Disk.storage "repo" "a/b" fresh.1 fresh.2
    failed.1 = .error (.storage .notFound) ∧ failed.2.1.has "repo" "a/b" = false ∧
      ∃ x, failed.2.1.repo? "repo" = some x ∧
        (add Disk.storage.logging "repo" "v1" failed.2.1 (failed.2.2, [])).2.2.2 =
          [dirOf "cache" x.hash "v1"] := by
  intro fresh failed
  have hfailed : failed.1 = .error (.storage .notFound) ∧
      (failed.2.1.repo? "repo").isSome = true := by decide +kernel
  obtain ⟨herror, hopened⟩ := hfailed
  obtain ⟨x, hrepo⟩ := Option.isSome_iff_exists.mp hopened
  have hroot : fresh.1.root = some "cache" := by decide +kernel
  have hnew : fresh.1.has "repo" "v1" = false := by decide +kernel
  obtain ⟨-, hadd⟩ := record_of_failure Disk.storage {} [.setup "cache"] Disk.storage fresh.2
  obtain ⟨-, -, hmissing, -, hlater⟩ := hadd "repo" "a/b" _ herror
  have hasked := (hlater "cache" hroot).2.2 x hrepo Disk Disk.storage failed.2.2 "v1"
  refine ⟨herror, hmissing, x, hrepo, hasked.trans ?_⟩
  exact if_neg (ne_true_of_eq_false hnew)

end Cache

end GoSurface
