/-
# Types and expressions

One type of tree serves for Go types and for Go expressions, because the two share their
spelling: `List[int]` may be an instantiated type or an indexed value.

* `Expr`, `Field`, `Signature`: the trees;
* `Fields.slots`: a field list as the list of positions it declares;
* `Expr.baseTypeName`: the named type behind pointers, parentheses and type arguments.
-/
import GoSurface.Syntax.Ident

namespace GoSurface

/-- The direction of a channel type. -/
inductive ChanDir where
  | both
  | send
  | recv
deriving DecidableEq

mutual

/-- A type or an expression. -/
inductive Expr where
  | ident (x : Ident)
  | lit (l : Lit)
  /-- A variadic parameter type `...T`, or a spread argument `x...`. -/
  | ellipsis (elem : Expr)
  | pointer (elem : Expr)
  | slice (elem : Expr)
  | paren (inner : Expr)
  /-- An approximation term `~T` of a constraint. -/
  | tilde (elem : Expr)
  | array (length elem : Expr)
  | map (key value : Expr)
  | chan (dir : ChanDir) (elem : Expr)
  | func (sig : Signature)
  | struct (fields : List Field)
  | interface (elems : List Field)
  | selector (operand : Expr) (name : Ident)
  /-- An indexed value, or a generic type or function with its type arguments. -/
  | index (operand : Expr) (args : List Expr)
  | union (terms : List Expr)
  | call (callee : Expr) (args : List Expr)
  | binary (op : String) (left right : Expr)
  | unary (op : String) (operand : Expr)
  | keyValue (key value : Expr)
  /-- A composite literal; inside another one its type may be left out. -/
  | composite (type : Option Expr) (elements : List Expr)
  /-- A function literal; its body is not part of the surface. -/
  | funcLit (sig : Signature)
  | sliceExpr (operand : Expr) (bounds : List (Option Expr))
  | typeAssert (operand type : Expr)
  /-- A form outside this syntax, known by its kind only. -/
  | unsupported (kind : String)

/-- A group of names that share a type and a tag. -/
structure Field where
  names : List Ident
  type : Expr
  tag : Option Lit

/-- The type of a function: its type parameters, parameters and results. -/
structure Signature where
  typeParams : List Field
  params : List Field
  results : List Field

end

/-- A list of fields: parameters, results, type parameters, struct fields, interface elements. -/
abbrev Fields := List Field

/-! ## Slots -/

/-- One position of a field list: a name, if there is one, with its type and tag. -/
structure Slot where
  name : Option Ident
  type : Expr
  tag : Option Lit

/-- The names of a field's slots: one per name, and a single nameless one if there are none. -/
def slotNames : List Ident → List (Option Ident)
  | [] => [none]
  | x :: xs => some x :: xs.map some

/-- The slots of a field: all of them share its type and tag. -/
def Field.slots (f : Field) : List Slot :=
  (slotNames f.names).map fun x => ⟨x, f.type, f.tag⟩

/-- The slots of a field list, in order. -/
def Fields.slots (fs : Fields) : List Slot :=
  fs.flatMap Field.slots

theorem slotNames_ne_nil (xs : List Ident) : slotNames xs ≠ [] := by
  cases xs <;> simp [slotNames]

@[simp] theorem Fields.slots_nil : Fields.slots [] = [] := rfl

@[simp] theorem Fields.slots_cons (f : Field) (fs : Fields) :
    Fields.slots (f :: fs) = f.slots ++ Fields.slots fs := rfl

theorem Fields.slots_append (fs gs : Fields) :
    Fields.slots (fs ++ gs) = Fields.slots fs ++ Fields.slots gs := by
  simp [Fields.slots]

/-! ## Named types -/

/-- The name of the type behind pointers, parentheses and type arguments; for a qualified type
this is the selected name. -/
def Expr.baseTypeName : Expr → Option String
  | .ident x => some x.name
  | .pointer e => e.baseTypeName
  | .paren e => e.baseTypeName
  | .index e _ => e.baseTypeName
  | .selector _ x => some x.name
  | _ => none

end GoSurface
