/-
# The command line

Two commands, `compare` for directory trees and `files` for single files, each with two paths and
options in any order.

* `Command.parse`: a command from the arguments;
* `Command.run`: what it answers on a disk.
-/
import GoSurface.Compare.Sources
import GoSurface.Directories
import GoSurface.Report

namespace GoSurface

/-! ## Arguments -/

/-- The options of a command, each given at most once. -/
structure Options where
  explain : Bool := false
  verbose : Bool := false
  filter : Option Severity := none
  grep : Option String := none
  format : Option Format := none
  config : Option String := none

/-- What a command compares. -/
inductive Subject where
  /-- Directory trees. -/
  | trees
  /-- Single files. -/
  | files
deriving DecidableEq

/-- The subject of a command's name. -/
def Subject.ofName? : String → Option Subject
  | "compare" => some .trees
  | "files" => some .files
  | _ => none

/-- A command. -/
structure Command where
  subject : Subject
  previous : String
  latest : String
  options : Options

/-- The arguments read so far. -/
structure Draft where
  options : Options := {}
  paths : List String := []

namespace Draft

/-- One more path, which is not empty. -/
def addPath (d : Draft) (path : String) : Option Draft :=
  if path.isEmpty then none else some { d with paths := d.paths ++ [path] }

/-- Sets an option that takes no value; none can be given twice. -/
def setFlag (d : Draft) (name : String) : Option Draft :=
  match name with
  | "--explain" => if d.options.explain then none else some { d with options.explain := true }
  | "--verbose" | "-v" =>
    if d.options.verbose then none else some { d with options.verbose := true }
  | _ => none

/-- The options that take a value. -/
def valued : List String := ["--filter", "--grep", "--format", "--config"]

/-- A value for an option that has none. -/
def once {α : Type} (current : Option α) (new : Option α) : Option (Option α) :=
  if current.isSome then none else new.map some

/-- Sets an option to a value; none can be given twice. -/
def setValue (d : Draft) (name value : String) : Option Draft :=
  let o := d.options
  match name with
  | "--filter" => do
    return { d with options.filter := ← once o.filter (Severity.ofName? value) }
  | "--grep" => do
    return { d with options.grep := ← once o.grep (some value) }
  | "--format" => do
    return { d with options.format := ← once o.format (Format.ofName? value) }
  | "--config" => do
    let path := if value.isEmpty then none else some value
    return { d with options.config := ← once o.config path }
  | _ => none

end Draft

/-- Whether an argument is an option; a dash alone is a path. -/
def isOption (arg : String) : Bool :=
  arg.toList.head? = some '-' && arg ≠ "-"

/-- An argument cut at its first equals sign, if it has one. -/
def cutAtEquals (arg : String) : Option (String × String) :=
  match arg.toList.dropWhile (· ≠ '=') with
  | [] => none
  | _ :: value => some (String.ofList (arg.toList.takeWhile (· ≠ '=')), String.ofList value)

/-- Reads arguments: options and paths in any order, and only paths after two dashes. -/
def Draft.read : List String → Draft → Option Draft
  | [], d => some d
  | arg :: args, d =>
    if arg = "--" then args.foldlM Draft.addPath d
    else if !isOption arg then do read args (← d.addPath arg)
    else if arg ∈ valued then
      match args with
      | [] => none
      | value :: rest => if isOption value then none else do read rest (← d.setValue arg value)
    else
      match cutAtEquals arg with
      | some (name, value) => do read args (← d.setValue name value)
      | none => do read args (← d.setFlag arg)

/-- A command from its arguments. -/
def Command.parse : List String → Option Command
  | [] => none
  | name :: args => do
    let subject ← Subject.ofName? name
    let d ← Draft.read args {}
    match d.paths with
    | [previous, latest] => return ⟨subject, previous, latest, d.options⟩
    | _ => none

/-! ## Running -/

/-- Why a command fails: what happened, and the reasons behind it. -/
abbrev Trouble := List String

/-- The configuration in a file. -/
def Config.load (d : Disk) (path : String) : Except Trouble Config :=
  let what := "Failed to load config '" ++ path ++ "'"
  match d.readText path with
  | .error fault => .error [what, fault.message]
  | .ok text =>
    match Config.ofYaml? text with
    | some c => .ok c
    | none => .error [what]

/-- The settings of the configuration file with those of the options on top. -/
def Options.settings (o : Options) (d : Disk) : Except Trouble Config := do
  let c ← match o.config with
    | some path => Config.load d path
    | none => .ok {}
  return { c with
    explain := c.explain || o.explain
    filter := o.filter <|> c.filter
    grep := o.grep <|> c.grep }

/-- The text of one of the two files. -/
def readSide (d : Disk) (side path : String) : Except Trouble String :=
  (d.readText path).mapError fun fault =>
    ["Failed to read " ++ side ++ " file '" ++ path ++ "'", fault.message]

/-- The changes between two files. -/
def compareFiles (d : Disk) (previous latest : String) : Except Trouble Diff := do
  let p ← readSide d "previous" previous
  let l ← readSide d "latest" latest
  (compareSources previous p latest l).mapError fun e => [e.message]

/-- The report that a command gives. -/
def Command.run (c : Command) (d : Disk) : Except Trouble Report := do
  let config ← c.options.settings d
  let diff ← match c.subject with
    | .trees => (compareTrees d config c.previous c.latest).mapError LoadError.messages
    | .files => compareFiles d c.previous c.latest
  return Report.of (c.options.format.getD .text) config diff

end GoSurface
