/-
# Comparing directories

Two revisions as directory trees.  The Go files of a directory are grouped by package clause, and
the packages of the two trees are compared directory by directory.

* `loadPackages`: the packages in a directory;
* `compareDirs`: the changes between two directories;
* `listDirectories`: the directories of a tree, each of which can be opened;
* `compareTrees`: the changes between two trees.
-/
import GoSurface.Compare.Packages
import GoSurface.Config
import GoSurface.Disk.Tree
import GoSurface.Source.Files

namespace GoSurface

/-! ## Loading -/

/-- Why a tree or the packages of a directory cannot be loaded. -/
inductive LoadError where
  | unlistable (root path : String) (fault : Fault)
  | unreadable (path : String) (fault : Disk.ReadFault)
  | unparsable (path : String) (error : ParseError)
deriving DecidableEq

/-- What happened, and why. -/
def LoadError.messages : LoadError → List String
  | .unlistable root path fault =>
    ["Failed to walk " ++ root, "IO error for operation on " ++ path ++ ": " ++ fault.message,
      fault.message]
  | .unreadable path fault => ["Failed to read file '" ++ path ++ "'", fault.message]
  | .unparsable path error => ["Failed to parse file '" ++ path ++ "'", error.message]

/-- Whether a name ends with a text. -/
def endsWith (name ending : String) : Bool :=
  ending.toList.isSuffixOf name.toList

/-- Whether a file of this name counts: Go source, and no test unless tests count. -/
def Config.considers (c : Config) (name : String) : Bool :=
  endsWith name ".go" && (c.includeTests || !endsWith name "_test.go")

/-- The names of the files in a directory that count, in order. -/
def sourceNames (d : Disk) (c : Config) (loc : Location) : List String :=
  let found := (d.children loc).filterMap fun (name, e) =>
    match e with
    | .file _ => if c.considers name then some name else none
    | _ => none
  found.mergeSort fun a b => a ≤ b

/-- The file that a path leads to. -/
def loadFile (d : Disk) (path : String) : Except LoadError File := do
  let text ← (d.readText path).mapError (.unreadable path)
  (File.parse path text).mapError (.unparsable path)

/-- Adds a file to the package of its clause, in a list that is sorted by package name. -/
def addToPackages (f : File) : List (String × List File) → List (String × List File)
  | [] => [(f.package, [f])]
  | (name, fs) :: ps =>
    if f.package < name then (f.package, [f]) :: (name, fs) :: ps
    else if f.package = name then (name, fs ++ [f]) :: ps
    else (name, fs) :: addToPackages f ps

/-- The packages of some files, sorted by name, with their names resolved. -/
def groupPackages (fs : List File) : List Package :=
  (fs.foldl (fun ps f => addToPackages f ps) []).map fun (name, fs) =>
    (Package.mk name fs).resolve

/-- The packages in a directory, sorted by name; there are none if it is no directory. -/
def loadPackages (d : Disk) (c : Config) (dir : String) : Except LoadError (List Package) :=
  match d.dirAt? dir with
  | none => .ok []
  | some loc => do
    let files ← (sourceNames d c loc).mapM fun name => loadFile d (Path.join dir name)
    return groupPackages files

/-! ## Comparing -/

/-- A sorted list with one more element, unless it has it. -/
def insertSorted {α : Type} [DecidableEq α] (lt : α → α → Bool) (a : α) : List α → List α
  | [] => [a]
  | b :: bs =>
    if a = b then b :: bs
    else if lt a b then a :: b :: bs
    else b :: insertSorted lt a bs

/-- The elements of a list, sorted, each once. -/
def sortedSet {α : Type} [DecidableEq α] (lt : α → α → Bool) (as : List α) : List α :=
  as.foldr (insertSorted lt) []

/-- The package of a name. -/
def findPackage (ps : List Package) (name : String) : Option Package :=
  ps.find? (·.name = name)

/-- The changes between the packages of two directories, by package name. -/
def compareLoaded (previous latest : List Package) : Diff :=
  let names := sortedSet (fun a b => a < b) ((previous ++ latest).map (·.name))
  names.flatMap fun name => comparePackages (findPackage previous name) (findPackage latest name)

/-- The changes between two directories, leaving out what is below them. -/
def compareDirs (d : Disk) (c : Config) (previous latest : String) : Except LoadError Diff := do
  let p ← loadPackages d c previous
  let l ← loadPackages d c latest
  return compareLoaded p l

/-! ## Trees -/

/-- Whether one path comes before another: by the first name in which they differ. -/
def Location.before : Location → Location → Bool
  | [], [] => false
  | [], _ :: _ => true
  | _ :: _, [] => false
  | a :: as, b :: bs => a < b || (a = b && before as bs)

/-- The directories below a location by their paths from there; those with an ignored name are
not entered, and links are not followed. -/
def dirsBelow (d : Disk) (c : Config) (loc : Location) : List Location :=
  d.entries.filterMap fun (l, e) =>
    match e with
    | .dir =>
      let names := l.drop loc.length
      if loc.isPrefixOf l && !names.isEmpty && names.all (!c.isIgnored ·) then some names else none
    | _ => none

/-- The directories of a tree by their paths from its root.  The root itself is one unless it is a
link. -/
def directories (d : Disk) (c : Config) (root : String) : List Location :=
  match d.dirAt? root with
  | none => []
  | some loc =>
    if (d.leadsTo? false root).isSome then [] :: dirsBelow d c loc else dirsBelow d c loc

/-- The path of a directory of a tree. -/
def pathBelow (root : String) (dir : Location) : String :=
  Path.join root ("/".intercalate dir)

/-- The path under which a directory of a tree is opened to find those in it: that of the root is
as it was given. -/
def listedPath (root : String) (dir : Location) : String :=
  if dir = [] then root else pathBelow root dir

/-- Opens a directory of a tree. -/
def enterDir (d : Disk) (root : String) (dir : Location) : Except LoadError Location :=
  match d.openDir true (listedPath root dir) with
  | .ok _ => .ok dir
  | .error fault => .error (.unlistable root (listedPath root dir) fault)

/-- The directories of a tree in order.  The first that cannot be opened is reported. -/
def listDirectories (d : Disk) (c : Config) (root : String) : Except LoadError (List Location) :=
  (sortedSet Location.before (directories d c root)).mapM (enterDir d root)

/-- The changes between two trees, directory by directory. -/
def compareTrees (d : Disk) (c : Config) (previous latest : String) : Except LoadError Diff := do
  let dirs := sortedSet Location.before
    ((← listDirectories d c previous) ++ (← listDirectories d c latest))
  let diffs ← dirs.mapM fun dir =>
    compareDirs d c (pathBelow previous dir) (pathBelow latest dir)
  return diffs.flatten

end GoSurface
