/-
# Changes and their severity

What a comparison reports: a list of changes, each with its impact, its reason and the
declarations concerned as they stand in the two revisions.

* `Severity`: `patch < minor < major`;
* `Reason`: why a change is reported, with its wording;
* `Diff.severity`: the highest impact among the changes, `patch` if there are none.
-/
import GoSurface.Syntax.Printer

namespace GoSurface

/-! ## Severity -/

/-- The impact of a change on those who use the package. -/
inductive Severity where
  | patch
  | minor
  | major
deriving DecidableEq

namespace Severity

/-- The place in the order `patch < minor < major`. -/
def rank : Severity → Nat
  | patch => 0
  | minor => 1
  | major => 2

instance : LE Severity := ⟨fun a b => a.rank ≤ b.rank⟩

instance (a b : Severity) : Decidable (a ≤ b) :=
  inferInstanceAs (Decidable (a.rank ≤ b.rank))

instance : Max Severity := ⟨fun a b => if a ≤ b then b else a⟩

/-- The word in lower case, as configuration and reports for programs write it. -/
def name : Severity → String
  | patch => "patch"
  | minor => "minor"
  | major => "major"

/-- The word in upper case, as reports for people write it. -/
def verdict : Severity → String
  | patch => "PATCH"
  | minor => "MINOR"
  | major => "MAJOR"

def all : List Severity := [patch, minor, major]

/-- The severity of that lower-case name. -/
def ofName? (s : String) : Option Severity :=
  all.find? (·.name = s)

end Severity

/-! ## Reasons -/

/-- Why a change is reported. -/
inductive Reason where
  | packageAdded
  | packageRemoved
  | valueAdded (kind : ValueKind)
  | valueRemoved (kind : ValueKind)
  | valueChanged (kind : ValueKind)
  | functionAdded
  | functionRemoved
  | receiverChanged
  | signatureChanged
  | typeAdded
  | typeRemoved
  | fieldsAppended
  | typeChanged
deriving DecidableEq

/-- The word for declarations of this kind. -/
def ValueKind.noun : ValueKind → String
  | .const => "constant"
  | .var => "variable"

namespace Reason

/-- The wording of a reason. -/
def text : Reason → String
  | packageAdded => "package added"
  | packageRemoved => "package removed"
  | valueAdded k => k.noun ++ " added"
  | valueRemoved k => k.noun ++ " removed"
  | valueChanged k => k.noun ++ " signature changed"
  | functionAdded => "function added"
  | functionRemoved => "function removed"
  | receiverChanged => "receiver type changed"
  | signatureChanged => "function signature changed"
  | typeAdded => "type added"
  | typeRemoved => "type removed"
  | fieldsAppended => "struct fields appended"
  | typeChanged => "type signature changed"

def all : List Reason :=
  [packageAdded, packageRemoved, valueAdded .const, valueRemoved .const, valueChanged .const,
    valueAdded .var, valueRemoved .var, valueChanged .var, functionAdded, functionRemoved,
    receiverChanged, signatureChanged, typeAdded, typeRemoved, fieldsAppended, typeChanged]

/-- The reason of that wording. -/
def ofText? (s : String) : Option Reason :=
  all.find? (·.text = s)

end Reason

/-! ## Snippets -/

/-- A declaration as it is quoted in a report. -/
structure Snippet where
  name : String
  position : Position
  text : String
deriving DecidableEq

def FuncDecl.snippet (f : FuncDecl) : Snippet :=
  ⟨f.name.name, f.position, f.text⟩

def TypeSpec.snippet (t : TypeSpec) : Snippet :=
  ⟨t.name.name, t.position, t.text⟩

def ValueSpec.snippet (v : ValueSpec) : Snippet :=
  ⟨namesText v.names, v.position, v.text⟩

/-- The quotation of a package clause, at the start of a file if one is known. -/
def Snippet.ofPackage (name : String) (file : Option String) : Snippet :=
  ⟨name, ⟨file.getD "", 1, 1⟩, "package " ++ name⟩

/-- The quotation of a package by the clause of its first file. -/
def Package.snippet (p : Package) : Snippet :=
  Snippet.ofPackage p.name (p.files.head?.map (·.name))

/-! ## Changes -/

/-- A difference between two revisions. -/
structure Change where
  severity : Severity
  reason : Reason
  previous : Option Snippet
  latest : Option Snippet
deriving DecidableEq

namespace Change

def added (severity : Severity) (reason : Reason) (latest : Snippet) : Change :=
  ⟨severity, reason, none, some latest⟩

def removed (severity : Severity) (reason : Reason) (previous : Snippet) : Change :=
  ⟨severity, reason, some previous, none⟩

def changed (severity : Severity) (reason : Reason) (previous latest : Snippet) : Change :=
  ⟨severity, reason, some previous, some latest⟩

/-- The quotations of a change, the previous revision's first. -/
def snippets (c : Change) : List Snippet :=
  c.previous.toList ++ c.latest.toList

end Change

/-! ## Diffs -/

/-- The changes between two revisions, in the order of the report. -/
abbrev Diff := List Change

/-- The highest severity among the changes. -/
def Diff.severity (d : Diff) : Severity :=
  d.foldr (fun c s => max c.severity s) .patch

@[simp] theorem Diff.severity_nil : Diff.severity [] = .patch := rfl

@[simp] theorem Diff.severity_cons (c : Change) (d : Diff) :
    Diff.severity (c :: d) = max c.severity (Diff.severity d) := rfl

end GoSurface
