/-
# Functions and methods

Functions are paired by name, methods by name and by the base type of their receiver.

* `diffFunctions` reports what was added, removed or changed.
-/
import GoSurface.Change
import GoSurface.Compare.Equality
import GoSurface.Compare.Pairing

namespace GoSurface

/-- The functions and methods with an exported name. -/
def exportedFuncs (p : Option Package) : List FuncDecl :=
  match p with
  | some p => p.funcs.filter (·.name.isExported)
  | none => []

/-- What identifies a function: its name and its receiver's base type. -/
def FuncDecl.key (f : FuncDecl) : String × Option String :=
  (f.name.name, f.receiverBase)

/-- A method that no other package could reach, because its type is unexported. -/
def FuncDecl.isHidden (f : FuncDecl) : Bool :=
  match f.receiverBase with
  | some base => !isExported base
  | none => false

/-- Both are plain functions, or both are methods with the same receiver. -/
def sameReceivers : Option Fields → Option Fields → Bool
  | some a, some b => Fields.same .ignored a b
  | none, none => true
  | _, _ => false

/-- Why two declarations of one function differ, if they do. -/
def FuncDecl.difference? (p l : FuncDecl) : Option Reason :=
  if !sameReceivers p.recv l.recv then some .receiverChanged
  else if !p.sig.same l.sig then some .signatureChanged
  else none

/-- The change that a pair of functions amounts to. -/
def funcChange : Pair FuncDecl → Option Change
  | .added l => some (.added .minor .functionAdded l.snippet)
  | .removed p => if p.isHidden then none else some (.removed .major .functionRemoved p.snippet)
  | .both p l => (p.difference? l).map fun reason => .changed .major reason p.snippet l.snippet

/-- The changes in the functions and methods of a package. -/
def diffFunctions (previous latest : Option Package) : Diff :=
  (pairByKey FuncDecl.key (exportedFuncs previous) (exportedFuncs latest)).filterMap funcChange

end GoSurface
