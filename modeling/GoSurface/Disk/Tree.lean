/-
# Disks

A tree of directories, files and symbolic links, and the calls that look at it and change it.  A
call names things by paths; links are followed where the call follows them.

* `Disk`: what there is, by location;
* `Fault`: why a call fails;
* `Disk.locate`: what a path leads to;
* `Disk.createDir`, `Disk.removeTree`, `Disk.writeFile`, `Disk.createLink`: changes.
-/
import GoSurface.Disk.Path

namespace GoSurface

/-! ## What there is -/

/-- Where something stands: the names from the root down to it. -/
abbrev Location := List String

/-- Why a call fails. -/
inductive Fault where
  | notFound
  | exists
  | notDirectory
  | isDirectory
  | invalid
  | nameTooLong
  | tooManyLinks
  /-- Anything else, by its message. -/
  | other (text : String)
deriving DecidableEq

/-- The message of a fault, with its number. -/
def Fault.message : Fault → String
  | .notFound => "No such file or directory (os error 2)"
  | .exists => "File exists (os error 17)"
  | .notDirectory => "Not a directory (os error 20)"
  | .isDirectory => "Is a directory (os error 21)"
  | .invalid => "Invalid argument (os error 22)"
  | .nameTooLong => "File name too long (os error 36)"
  | .tooManyLinks => "Too many levels of symbolic links (os error 40)"
  | .other text => text

/-- What reading a file gives: its bytes, or the reason why it cannot be read. -/
abbrev Content := Except Fault ByteArray

/-- A thing on a disk. -/
inductive Entry where
  | dir
  | file (content : Content)
  | link (target : String)

/-- Everything below the root, and the working directory. -/
structure Disk where
  entries : List (Location × Entry) := []
  here : Location := []

namespace Disk

/-- What stands at a location; the root is a directory. -/
def get? (d : Disk) (loc : Location) : Option Entry :=
  if loc = [] then some .dir else (d.entries.find? (·.1 = loc)).map (·.2)

/-- Puts something at a location. -/
def insert (d : Disk) (loc : Location) (e : Entry) : Disk :=
  { d with entries := (loc, e) :: d.entries.filter (·.1 ≠ loc) }

/-- Takes away what stands at a location and below it. -/
def erase (d : Disk) (loc : Location) : Disk :=
  { d with entries := d.entries.filter fun (l, _) => !loc.isPrefixOf l }

/-- The names in a directory with what they stand for. -/
def children (d : Disk) (loc : Location) : List (String × Entry) :=
  d.entries.filterMap fun (l, e) =>
    match l.getLast? with
    | some name => if l.dropLast = loc then some (name, e) else none
    | none => none

/-! ## Following paths -/

/-- The longest name and the longest path in bytes. -/
def maxName : Nat := 255

/-- The length in bytes that a path stays below. -/
def maxPath : Nat := 4096

/-- The number of links that are followed on the way to a thing. -/
def maxLinks : Nat := 40

/-- Goes from a directory along some names.  `onLink` goes on after a link, from the directory
where its target starts; a link at the end is followed only if `follow` says so. -/
def walkWith (d : Disk) (follow : Bool)
    (onLink : Location → List String → Except Fault (Location × Entry)) :
    Location → List String → Except Fault (Location × Entry)
  | loc, [] => .ok (loc, .dir)
  | loc, name :: names =>
    if name = "" ∨ name = "." then walkWith d follow onLink loc names
    else if name = ".." then walkWith d follow onLink loc.dropLast names
    else if maxName < name.utf8ByteSize then .error .nameTooLong
    else
      match d.get? (loc ++ [name]) with
      | none => .error .notFound
      | some .dir => walkWith d follow onLink (loc ++ [name]) names
      | some (.file content) =>
        if names.isEmpty then .ok (loc ++ [name], .file content) else .error .notDirectory
      | some (.link target) =>
        if names.isEmpty && !follow then .ok (loc ++ [name], .link target)
        else onLink (if Path.isAbsolute target then [] else loc) (Path.components target ++ names)

/-- Goes from a directory along some names, following at most this many links. -/
def walkFrom (d : Disk) (follow : Bool) :
    Nat → Location → List String → Except Fault (Location × Entry)
  | 0 => walkWith d follow fun _ _ => .error .tooManyLinks
  | n + 1 => walkWith d follow (walkFrom d follow n)

/-- A path that a call can be given: not empty, not too long and without null characters. -/
def checkPath (path : String) : Except Fault Unit :=
  if '\x00' ∈ path.toList then .error (.other "file name contained an unexpected NUL byte")
  else if path.isEmpty then .error .notFound
  else if maxPath ≤ path.utf8ByteSize then .error .nameTooLong
  else .ok ()

/-- Where a path starts. -/
def base (d : Disk) (path : String) : Location :=
  if Path.isAbsolute path then [] else d.here

/-- The directory where a path starts.  The working directory may be gone. -/
def start (d : Disk) (path : String) : Except Fault Location :=
  match d.get? (d.base path) with
  | some .dir => .ok (d.base path)
  | _ => .error .notFound

/-- What a path leads to. -/
def locate (d : Disk) (follow : Bool) (path : String) : Except Fault (Location × Entry) := do
  checkPath path
  walkFrom d follow maxLinks (← d.start path) (Path.components path)

/-- The directory that a path leads to, or why there is none; a link at the end of the path is
followed or not. -/
def openDir (d : Disk) (follow : Bool) (path : String) : Except Fault Location :=
  match d.locate follow path with
  | .ok (loc, .dir) => .ok loc
  | .ok _ => .error .notDirectory
  | .error fault => .error fault

/-- The directory that a path leads to, if there is one. -/
def leadsTo? (d : Disk) (follow : Bool) (path : String) : Option Location :=
  (d.openDir follow path).toOption

/-- The directory that a path leads to when links are followed. -/
def dirAt? (d : Disk) (path : String) : Option Location :=
  d.leadsTo? true path

/-- The place for a new thing: the directory and the name.  Slashes at the end do not count; a
name that means a directory by itself is taken. -/
def freePlace (d : Disk) (path : String) : Except Fault Location := do
  checkPath path
  match (Path.components path).reverse.dropWhile (· = "") with
  | [] => .error .exists
  | name :: above =>
    let (loc, _) ← walkFrom d true maxLinks (← d.start path) (above.reverse ++ ["."])
    if name = "." || name = ".." then .error .exists
    else if maxName < name.utf8ByteSize then .error .nameTooLong
    else if (d.get? (loc ++ [name])).isSome then .error .exists
    else .ok (loc ++ [name])

/-! ## Changes -/

/-- Creates a directory in one that exists. -/
def createDir (d : Disk) (path : String) : Except Fault Disk := do
  return d.insert (← d.freePlace path) .dir

/-- Creates a directory unless there is one. -/
def ensureDir (d : Disk) (path : String) : Except Fault Disk :=
  if (d.dirAt? path).isSome then .ok d else d.createDir path

/-- The paths on the way to a path, itself included. -/
def waysTo (path : String) : List String :=
  let names := Path.components path
  (List.range names.length).map fun n => "/".intercalate (names.take (n + 1))

/-- Creates a directory and all that are missing on the way to it. -/
def createDirs (d : Disk) (path : String) : Except Fault Disk :=
  ((waysTo path).filter (· ≠ "")).foldlM ensureDir d

/-- Writes a file, a new one or over an old one. -/
def writeFile (d : Disk) (path : String) (content : ByteArray) : Except Fault Disk :=
  match d.locate true path with
  | .ok (_, .dir) => .error .isDirectory
  | .ok (loc, _) => .ok (d.insert loc (.file (.ok content)))
  | .error .notFound => do
    if Path.endsOpen path then .error .isDirectory
    else return d.insert (← d.freePlace path) (.file (.ok content))
  | .error fault => .error fault

/-- Creates a symbolic link. -/
def createLink (d : Disk) (path target : String) : Except Fault Disk := do
  return d.insert (← d.freePlace path) (.link target)

/-- Removes a directory with all that is in it, or a link.  The root stays, empty. -/
def removeTree (d : Disk) (path : String) : Except Fault Unit × Disk :=
  match d.locate false path with
  | .error fault => (.error fault, d)
  | .ok (_, .file _) => (.error .notDirectory, d)
  | .ok (loc, _) => (if loc = [] then .error .invalid else .ok (), d.erase loc)

/-! ## Contents -/

/-- Why a text cannot be read. -/
inductive ReadFault where
  | fault (f : Fault)
  | notText
deriving DecidableEq

/-- The message of a fault in reading. -/
def ReadFault.message : ReadFault → String
  | .fault f => f.message
  | .notText => "stream did not contain valid UTF-8"

/-- The text of what reading a file gives. -/
def textOf : Content → Except ReadFault String
  | .error fault => .error (.fault fault)
  | .ok bytes =>
    match String.fromUTF8? bytes with
    | some text => .ok text
    | none => .error .notText

/-- The text of a file. -/
def readText (d : Disk) (path : String) : Except ReadFault String :=
  match d.locate true path with
  | .ok (_, .file content) => textOf content
  | .ok _ => .error (.fault .isDirectory)
  | .error f => .error (.fault f)

/-- The path of a location in a listing: directories end with a slash. -/
def listed : Location × Entry → String
  | (loc, .dir) => "/".intercalate loc ++ "/"
  | (loc, _) => "/".intercalate loc

/-- All paths on a disk, in order. -/
def listing (d : Disk) : List String :=
  (d.entries.map listed).mergeSort fun a b => a ≤ b

end Disk

end GoSurface
