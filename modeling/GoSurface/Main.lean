/-
# The program

Copies what a command looks at from the file system onto a `Disk`, runs the command there, and
prints its report.  A thing that cannot be read is copied as such, with the reason, so that the
command reports it if it needs it.

* `Program.copyPath`: what a path passes, links and their targets included;
* `Program.copyTree`: a directory with all that is in it;
* `Program.diskFor`: everything that a command looks at.
-/
import GoSurface.Command

namespace GoSurface.Program

/-! ## The file system -/

/-- The number and the text of an error of the system. -/
def numbered? : IO.Error → Option (UInt32 × String)
  | .interrupted _ n text | .noFileOrDirectory _ n text => some (n, text)
  | .alreadyExists _ n text | .invalidArgument _ n text | .permissionDenied _ n text
  | .resourceExhausted _ n text | .inappropriateType _ n text | .noSuchThing _ n text =>
    some (n, text)
  | .otherError n text | .resourceBusy n text | .resourceVanished n text
  | .unsupportedOperation n text | .hardwareFault n text | .unsatisfiedConstraints n text
  | .illegalOperation n text | .protocolError n text | .timeExpired n text => some (n, text)
  | .unexpectedEof | .userError _ => none

/-- The faults that are known by their numbers. -/
def knownFaults : List Fault :=
  [.notFound, .exists, .notDirectory, .isDirectory, .invalid, .nameTooLong, .tooManyLinks]

/-- Why a call of the system failed. -/
def faultOf (e : IO.Error) : Fault :=
  match numbered? e with
  | none => .other e.toString
  | some (n, text) =>
    -- some calls give the number negated
    let number := " (os error " ++ toString (min n (0 - n)) ++ ")"
    (knownFaults.find? fun fault => endsWith fault.message number).getD
      (.other (text.capitalize ++ number))

/-- What an action gives, or why it fails. -/
def attempt {α : Type} (act : IO α) : IO (Except Fault α) := do
  return (← act.toBaseIO).mapError faultOf

/-- A path for the calls of the system. -/
def native (path : String) := (⟨⟨path⟩, ""⟩ : IO.FS.DirEntry).root

/-- What reading a file gives. -/
def contentAt (path : String) : IO Content :=
  attempt (IO.FS.readBinFile (native path))

/-- What kind of thing stands at a path. -/
def kindAt (path : String) : IO (Except Fault IO.FS.FileType) := do
  return (← attempt (native path).symlinkMetadata).map (·.type)

/-- The names in a directory, in order. -/
def namesIn (path : String) : IO (Except Fault (List String)) := do
  return (← attempt (native path).readDir).map fun things =>
    (things.toList.map (·.fileName)).mergeSort fun a b => a ≤ b

/-! ## Copying -/

/-- A disk with directories at a location and on the way to it. -/
def withDirs (d : Disk) (loc : Location) : Disk :=
  (List.range loc.length).foldl (fun d n => d.insert (loc.take (n + 1)) .dir) d

/-- A disk with a copy of the link at a path. -/
def copyLink (d : Disk) (path : String) (loc : Location) : IO Disk := do
  match ← attempt (IO.FS.realPath (native path)) with
  | .ok target => return d.insert loc (.link target.toString)
  | .error _ =>
    -- The link leads nowhere, in circles, or to something that has no path.  Its target becomes a
    -- file under a name that nothing has, with what reading it gives.
    let name := "\x00" ++ toString d.entries.length
    return (d.insert [name] (.file (← contentAt path))).insert loc (.link ("/" ++ name))

/-- A disk with a copy of the thing at a path, without what is in it.  What is neither a directory,
a file nor a link is copied as a file if it is to be read, and otherwise left out. -/
def copyThing (toRead : Bool) (d : Disk) (path : String) (loc : Location) : IO Disk := do
  if (d.get? loc).isSome then return d
  match ← kindAt path with
  | .error .notFound => return d
  | .error fault => return d.insert loc (.file (.error fault))
  | .ok .dir => return d.insert loc .dir
  | .ok .file => return d.insert loc (.file (← contentAt path))
  | .ok .symlink => copyLink d path loc
  | .ok .other => if toRead then return d.insert loc (.file (← contentAt path)) else return d

/-- A disk with copies of what some names pass from a directory on. -/
partial def copyWay (toRead : Bool) (d : Disk) : Location → List String → IO Disk
  | _, [] => return d
  | loc, name :: names => do
    if name = "" || name = "." then copyWay toRead d loc names
    else if name = ".." then copyWay toRead d loc.dropLast names
    else
      let next := loc ++ [name]
      let d ← copyThing toRead d ("/" ++ "/".intercalate next) next
      match d.get? next with
      | some .dir => copyWay toRead d next names
      | some (.link target) => copyWay toRead d [] (Path.components target ++ names)
      | _ => return d

/-- A disk with copies of what a path passes, and of what it leads to. -/
def copyPath (toRead : Bool) (d : Disk) (path : String) : IO Disk :=
  copyWay toRead d (d.base path) (Path.components path)

/-- A disk with a copy of all that is in a directory of a tree, as far as directories are entered.
Fails if one of them cannot be listed. -/
partial def copyTree (c : Config) (root : String) (d : Disk) (path : String) (loc : Location) :
    ExceptT Trouble IO Disk := do
  match ← namesIn path with
  | .error fault => throw (LoadError.unlistable root path fault).messages
  | .ok names =>
    names.foldlM (fun d name => do
      let inner := Path.join path name
      let d ← copyThing false d inner (loc ++ [name])
      -- what cannot be looked at may be a directory, and has to be reported if it is
      let isDir := match ← kindAt inner with
        | .ok kind => kind == .dir
        | .error fault => fault ≠ .notFound && !c.considers name
      if isDir && !c.isIgnored name then copyTree c root d inner (loc ++ [name]) else return d) d

/-- A disk with a copy of the tree that a path leads to, if it leads to one. -/
def copyRoot (c : Config) (d : Disk) (root : String) : ExceptT Trouble IO Disk := do
  let d ← copyPath false d root
  match d.dirAt? root with
  | some loc => copyTree c root d root loc
  | none => return d

/-- A disk with a copy of what is right in the directory that a path leads to, if it leads to
one. -/
def copyDir (d : Disk) (path : String) : ExceptT Trouble IO Disk := do
  let d ← copyPath false d path
  match d.dirAt? path with
  | none => return d
  | some loc =>
    match ← namesIn path with
    | .error fault => throw ["Failed to read directory " ++ path,
        "IO error for operation on " ++ path ++ ": " ++ fault.message, fault.message]
    | .ok names =>
      names.foldlM (fun d name => copyThing false d (Path.join path name) (loc ++ [name])) d

/-- A disk with copies of two trees.  For a directory of one, the path in the other may lead out of
it, through links. -/
def copyTrees (c : Config) (d : Disk) (previous latest : String) : ExceptT Trouble IO Disk := do
  let d ← copyRoot c d previous
  let d ← copyRoot c d latest
  let paths := (directories d c previous).map (pathBelow latest) ++
    (directories d c latest).map (pathBelow previous)
  paths.foldlM copyDir d

/-- An empty disk but for the working directory.  If that is gone, paths start where nothing is. -/
def emptyDisk : IO Disk := do
  match ← attempt IO.currentDir with
  | .error _ => return { here := ["\x00"] }
  | .ok path =>
    let here := (Path.components path.toString).filter (· ≠ "")
    return withDirs { here } here

/-- A disk with copies of what some paths lead to, to be read. -/
def copyFiles (d : Disk) (paths : List String) : IO Disk :=
  paths.foldlM (copyPath true) d

/-- A disk with everything that a command looks at. -/
def diskFor (c : Command) : ExceptT Trouble IO Disk := do
  let d ← copyFiles (← emptyDisk) c.options.config.toList
  match c.subject with
  | .files => copyFiles d [c.previous, c.latest]
  | .trees => copyTrees (← c.options.settings d) d c.previous c.latest

/-! ## Printing -/

/-- What is printed when the arguments make no command. -/
def usage : String :=
  "usage: gosurface (compare|files) PREVIOUS LATEST [--explain] [--filter SEVERITY] [--grep TEXT]\n" ++
  "                 [--format text|json] [--config FILE] [-v]"

/-- The reasons behind what happened, numbered if there are several. -/
def causes : List String → List String
  | [cause] => ["    " ++ cause]
  | several => several.mapIdx fun n cause => "    " ++ toString n ++ ": " ++ cause

/-- What is printed when a command fails. -/
def failure (trouble : Trouble) : String :=
  "Error: " ++ trouble.headD "" ++
    (if trouble.tail.isEmpty then ""
      else "\n\nCaused by:\n" ++ "\n".intercalate (causes trouble.tail))

end GoSurface.Program

open GoSurface GoSurface.Program in
/-- Runs the command that the arguments give. -/
def main (args : List String) : IO UInt32 := do
  let start ← IO.monoNanosNow
  match Command.parse args with
  | none =>
    IO.eprintln usage
    return 2
  | some c =>
    match (← (diskFor c).run).bind c.run with
    | .error trouble =>
      IO.eprintln (failure trouble)
      return 1
    | .ok report =>
      IO.print (report.render (" " ++ durationText ((← IO.monoNanosNow) - start)))
      return 0
