/-
# The cache of revisions

A cache keeps a directory for every revision of a repository that it has been given, below one
root directory: `root/<digest of the repository>/<revision>`.  It records what it created, and asks
the storage only for what it has no record of.

* `Storage`: the calls that a cache makes, which may fail;
* `Cache`: the record;
* `Cache.setup`, `Cache.add`, `Cache.get`, `Cache.has`, `Cache.destroy`: its operations.
-/
import GoSurface.Disk.Tree
import GoSurface.Sha256

namespace GoSurface

/-! ## Storage -/

/-- A store of directories: calls that succeed or fail, and may change it either way. -/
structure Storage (σ : Type) where
  createDir : String → σ → Except Fault Unit × σ
  removeTree : String → σ → Except Fault Unit × σ

/-- A disk as a store of directories. -/
def Disk.storage : Storage Disk where
  createDir path d :=
    match d.createDir path with
    | .ok d' => (.ok (), d')
    | .error fault => (.error fault, d)
  removeTree path d := d.removeTree path

/-! ## The record -/

/-- A repository: the digest of its path, and the revisions that have a directory. -/
structure Repo where
  hash : String
  revisions : List String := []
deriving DecidableEq

/-- What a cache has created. -/
structure Cache where
  root : Option String := none
  repos : List (String × Repo) := []
deriving DecidableEq

/-- Why an operation on a cache fails. -/
inductive CacheError where
  | alreadySetUp
  | notSetUp
  | setupFailed (path : String) (fault : Fault)
  | repositoryNotCached (path : String)
  | revisionNotCached (revision : String)
  | storage (fault : Fault)
deriving DecidableEq

/-- The message of an error. -/
def CacheError.message : CacheError → String
  | .alreadySetUp => "cache is already setup"
  | .notSetUp => "cache is not setup"
  | .setupFailed path fault =>
    "failed at setting up cache in " ++ path ++ ": " ++ fault.message
  | .repositoryNotCached path => "repository not in cache: " ++ path
  | .revisionNotCached revision => "reference not in cache: " ++ revision
  | .storage fault => "IO error: " ++ fault.message

namespace Cache

/-- What is recorded of a repository. -/
def repo? (c : Cache) (path : String) : Option Repo :=
  (c.repos.find? (·.1 = path)).map (·.2)

/-- Records a repository without revisions. -/
def addRepo (c : Cache) (path : String) (hash : String) : Cache :=
  { c with repos := c.repos ++ [(path, ⟨hash, []⟩)] }

/-- Records a revision of a repository. -/
def addRevision (c : Cache) (path revision : String) : Cache :=
  { c with repos := c.repos.map fun (p, r) =>
      if p = path then (p, { r with revisions := r.revisions ++ [revision] }) else (p, r) }

/-- The directory of a revision. -/
def dirOf (root hash revision : String) : String :=
  Path.join (Path.join root hash) revision

/-! ## Operations -/

section Operations

variable {σ : Type} (s : Storage σ)

/-- Creates the root directory, which must be new. -/
def setup (root : String) (c : Cache) (w : σ) : Except CacheError Unit × Cache × σ :=
  match c.root with
  | some _ => (.error .alreadySetUp, c, w)
  | none =>
    match s.createDir root w with
    | (.ok _, w) => (.ok (), { root := some root, repos := [] }, w)
    | (.error fault, w) => (.error (.setupFailed root fault), c, w)

/-- Makes sure that a repository has a directory and a record. -/
def ensureRepo (root repo : String) (c : Cache) (w : σ) : Except Fault Repo × Cache × σ :=
  match c.repo? repo with
  | some r => (.ok r, c, w)
  | none =>
    let hash := Sha256.hex repo
    match s.createDir (Path.join root hash) w with
    | (.ok _, w) => (.ok ⟨hash, []⟩, c.addRepo repo hash, w)
    | (.error fault, w) => (.error fault, c, w)

/-- The directory of a revision, created unless it is recorded. -/
def add (repo revision : String) (c : Cache) (w : σ) : Except CacheError String × Cache × σ :=
  match c.root with
  | none => (.error .notSetUp, c, w)
  | some root =>
    match ensureRepo s root repo c w with
    | (.error fault, c, w) => (.error (.storage fault), c, w)
    | (.ok r, c, w) =>
      let dir := dirOf root r.hash revision
      if revision ∈ r.revisions then (.ok dir, c, w)
      else
        match s.createDir dir w with
        | (.ok _, w) => (.ok dir, c.addRevision repo revision, w)
        | (.error fault, w) => (.error (.storage fault), c, w)

/-- Removes the root directory with everything in it.  Nothing is recorded any more, even if that
fails. -/
def destroy (c : Cache) (w : σ) : Except CacheError Unit × Cache × σ :=
  match c.root with
  | none => (.error .notSetUp, c, w)
  | some root =>
    match s.removeTree root w with
    | (.ok _, w) => (.ok (), {}, w)
    | (.error fault, w) => (.error (.storage fault), {}, w)

end Operations

/-- The directory of a recorded revision. -/
def get (c : Cache) (repo revision : String) : Except CacheError String :=
  match c.repo? repo with
  | none => .error (.repositoryNotCached repo)
  | some r =>
    if revision ∈ r.revisions then
      match c.root with
      | some root => .ok (dirOf root r.hash revision)
      | none => .error .notSetUp
    else .error (.revisionNotCached revision)

/-- Whether a revision is recorded. -/
def has (c : Cache) (repo revision : String) : Bool :=
  match c.repo? repo with
  | some r => revision ∈ r.revisions
  | none => false

end Cache

end GoSurface
