/-
# Configuration

What a configuration file can set: names to skip while walking directories, whether tests count,
and which changes a report quotes.  The settings stand under the key `semver` of a YAML mapping.

* `Config`: the settings and their defaults;
* `Config.ofYaml?`: the settings in a YAML text;
* `ChangeFilter.accepts`: whether a report quotes a change.
-/
import GoSurface.Change
import GoSurface.Yaml.Node

namespace GoSurface

/-! ## Settings -/

/-- The settings for comparing directories and for reports. -/
structure Config where
  /-- Names of directories that are not entered. -/
  ignore : List String := [".git", ".github"]
  /-- Whether test files count. -/
  includeTests : Bool := false
  /-- Whether a report quotes the changes. -/
  explain : Bool := false
  /-- The only severity that a report quotes. -/
  filter : Option Severity := none
  /-- A text that every quoted change has in one of its snippets. -/
  grep : Option String := none
deriving DecidableEq

/-- Whether directories of this name are not entered. -/
def Config.isIgnored (c : Config) (name : String) : Bool :=
  name ∈ c.ignore

/-! ## Filters -/

/-- Which changes a report quotes. -/
structure ChangeFilter where
  severity : Option Severity := none
  grep : Option String := none

/-- Whether a list occurs in another one without a gap. -/
def occursIn (needle : List Char) : List Char → Bool
  | [] => needle.isEmpty
  | c :: cs => needle.isPrefixOf (c :: cs) || occursIn needle cs

/-- Whether a change passes: its severity is the given one, and one of its snippets has the given
text. -/
def ChangeFilter.accepts (f : ChangeFilter) (c : Change) : Bool :=
  (match f.severity with
    | some s => s = c.severity
    | none => true) &&
  (match f.grep with
    | some needle => c.snippets.any fun s => occursIn needle.toList s.text.toList
    | none => true)

/-- The filter that a configuration asks for. -/
def Config.changeFilter (c : Config) : ChangeFilter :=
  ⟨c.filter, c.grep⟩

/-! ## Reading settings -/

namespace Yaml

/-- The plain spellings of nothing. -/
def nullTexts : List String := ["", "~", "null", "Null", "NULL"]

namespace Document

/-- A text, however it is written. -/
def text? (d : Document) (n : Node) : Option String :=
  match d.follow n with
  | .scalar _ text => some text
  | _ => none

/-- A truth value, which is written without quotes. -/
def bool? (d : Document) (n : Node) : Option Bool :=
  match d.follow n with
  | .scalar true text =>
    if text ∈ ["true", "True", "TRUE"] then some true
    else if text ∈ ["false", "False", "FALSE"] then some false
    else none
  | _ => none

/-- A list of texts; nothing stands for the empty list. -/
def texts? (d : Document) (n : Node) : Option (List String) :=
  match d.follow n with
  | .sequence items => items.mapM d.text?
  | .scalar true "" => some []
  | _ => none

/-- The entries of a mapping, whose keys are texts; nothing stands for the empty mapping. -/
def entries? (d : Document) (n : Node) : Option (List (String × Node)) :=
  match d.follow n with
  | .mapping entries => entries.mapM fun (k, v) => do return (← d.text? k, v)
  | .scalar true "" => some []
  | _ => none

/-- Whether a node says that there is no value. -/
def isNull (d : Document) (n : Node) : Bool :=
  match d.follow n with
  | .scalar true text => text ∈ nullTexts
  | _ => false

/-- A value that may be absent. -/
def optional? {α : Type} (d : Document) (read : Node → Option α) (n : Node) : Option (Option α) :=
  if d.isNull n then some none else (read n).map some

end Document

/-- The values that a mapping has for a key. -/
def valuesOf (entries : List (String × Node)) (key : String) : List Node :=
  entries.filterMap fun (k, v) => if k = key then some v else none

/-- The setting of a key, or its default if the key is missing; a key may stand only once. -/
def setting {α : Type} (entries : List (String × Node)) (key : String) (default : α)
    (read : Node → Option α) : Option α :=
  match valuesOf entries key with
  | [] => some default
  | [v] => read v
  | _ => none

end Yaml

open Yaml

/-- A severity by its name. -/
def Yaml.Document.severity? (d : Document) (n : Node) : Option Severity := do
  Severity.ofName? (← d.text? n)

/-- The settings in a mapping. -/
def Config.ofNode? (d : Document) (n : Node) : Option Config := do
  let entries ← d.entries? n
  let initial : Config := {}
  return {
    ignore := ← setting entries "ignore" initial.ignore d.texts?
    includeTests := ← setting entries "include_tests" initial.includeTests d.bool?
    explain := ← setting entries "explain" initial.explain d.bool?
    filter := ← setting entries "filter" initial.filter (d.optional? d.severity?)
    grep := ← setting entries "grep" initial.grep (d.optional? d.text?) }

/-- The settings in a YAML text: the defaults if it has none, nothing if it is no configuration. -/
def Config.ofYaml? (text : String) : Option Config := do
  let d ← Document.parse text
  let entries ← d.entries? d.root
  let found ← setting entries "semver" none (d.optional? (Config.ofNode? d))
  return found.getD {}

end GoSurface
