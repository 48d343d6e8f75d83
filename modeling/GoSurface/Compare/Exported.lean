/-
# The exported part of a type

A struct is compared by what another package can see of it: its exported fields, at any depth
that is reached through struct fields, pointers, slices, parentheses, array elements, map keys and
values and channel elements.

* `Expr.exportedOnly` keeps the visible part of a type;
* `Slot.isVisible`: a named slot is visible by its name, an embedded one by its type's name.
-/
import GoSurface.Syntax.Expr

namespace GoSurface

/-- Whether a type's base name is an exported one. -/
def Expr.hasExportedBase (e : Expr) : Bool :=
  match e.baseTypeName with
  | some name => isExported name
  | none => false

/-- Whether a slot of a struct can be seen from outside the package. -/
def Slot.isVisible (s : Slot) : Bool :=
  match s.name with
  | some x => x.isExported
  | none => s.type.hasExportedBase

mutual

/-- The type with every reachable struct reduced to its visible fields. -/
def Expr.exportedOnly : Expr → Expr
  | .struct fs => .struct (Fields.exportedOnly fs)
  | .pointer e => .pointer e.exportedOnly
  | .slice e => .slice e.exportedOnly
  | .paren e => .paren e.exportedOnly
  | .array n e => .array n e.exportedOnly
  | .map k v => .map k.exportedOnly v.exportedOnly
  | .chan d e => .chan d e.exportedOnly
  | e => e

/-- What is visible of a field: nothing, or the field with its exported names. -/
def Field.exportedOnly : Field → List Field
  | ⟨[], t, tag⟩ => if t.hasExportedBase then [⟨[], t.exportedOnly, tag⟩] else []
  | ⟨x :: xs, t, tag⟩ =>
    match (x :: xs).filter Ident.isExported with
    | [] => []
    | y :: ys => [⟨y :: ys, t.exportedOnly, tag⟩]

/-- The visible fields of a struct. -/
def Fields.exportedOnly : List Field → List Field
  | [] => []
  | f :: fs => f.exportedOnly ++ Fields.exportedOnly fs

end

end GoSurface
