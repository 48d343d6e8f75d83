/-
# References in a tree

The identifiers that a type or an expression refers to, read from left to right.  Names of
fields and parameters, selected names and tags are declarations or members and no references.

* `Expr.refs` lists the references;
* `Expr.mapRefs` replaces each of them;
* `Expr.mentions` asks whether a name occurs as an unresolved reference.
-/
import GoSurface.Syntax.Expr

namespace GoSurface

/-! ## Listing references -/

mutual

/-- The references of a tree, from left to right. -/
def Expr.refs : Expr → List Ident
  | .ident x => [x]
  | .lit _ => []
  | .ellipsis e => e.refs
  | .pointer e => e.refs
  | .slice e => e.refs
  | .paren e => e.refs
  | .tilde e => e.refs
  | .array n e => n.refs ++ e.refs
  | .map k v => k.refs ++ v.refs
  | .chan _ e => e.refs
  | .func s => s.refs
  | .struct fs => Fields.refs fs
  | .interface fs => Fields.refs fs
  | .selector e _ => e.refs
  | .index e es => e.refs ++ Expr.refsList es
  | .union es => Expr.refsList es
  | .call e es => e.refs ++ Expr.refsList es
  | .binary _ l r => l.refs ++ r.refs
  | .unary _ e => e.refs
  | .keyValue k v => k.refs ++ v.refs
  | .composite t es => Expr.refsOption t ++ Expr.refsList es
  | .funcLit s => s.refs
  | .sliceExpr e bs => e.refs ++ Expr.refsOptions bs
  | .typeAssert e t => e.refs ++ t.refs
  | .unsupported _ => []

/-- The references of trees in a row. -/
def Expr.refsList : List Expr → List Ident
  | [] => []
  | e :: es => e.refs ++ Expr.refsList es

/-- The references of a tree that may be absent. -/
def Expr.refsOption : Option Expr → List Ident
  | none => []
  | some e => e.refs

/-- The references of the trees that are present. -/
def Expr.refsOptions : List (Option Expr) → List Ident
  | [] => []
  | e :: es => Expr.refsOption e ++ Expr.refsOptions es

/-- The references of a field are those of its type. -/
def Field.refs : Field → List Ident
  | ⟨_, t, _⟩ => t.refs

/-- The references of a field list. -/
def Fields.refs : List Field → List Ident
  | [] => []
  | f :: fs => f.refs ++ Fields.refs fs

/-- The references of a signature: type parameters, parameters, results. -/
def Signature.refs : Signature → List Ident
  | ⟨ts, ps, rs⟩ => Fields.refs ts ++ Fields.refs ps ++ Fields.refs rs

end

theorem Expr.refsList_eq_flatMap (es : List Expr) : Expr.refsList es = es.flatMap Expr.refs := by
  induction es with
  | nil => rfl
  | cons e es ih => simp [Expr.refsList, ih]

theorem Fields.refs_eq_flatMap (fs : Fields) : Fields.refs fs = fs.flatMap (·.type.refs) := by
  induction fs with
  | nil => rfl
  | cons f fs ih => cases f; simp [Fields.refs, Field.refs, ih]

/-- Whether a name occurs as a reference that no declaration has been found for. -/
def Expr.mentions (e : Expr) (name : String) : Bool :=
  e.refs.any fun x => x.name = name && x.binding.isNone

/-! ## Replacing references -/

mutual

/-- The tree with every reference replaced. -/
def Expr.mapRefs (f : Ident → Ident) : Expr → Expr
  | .ident x => .ident (f x)
  | .lit l => .lit l
  | .ellipsis e => .ellipsis (e.mapRefs f)
  | .pointer e => .pointer (e.mapRefs f)
  | .slice e => .slice (e.mapRefs f)
  | .paren e => .paren (e.mapRefs f)
  | .tilde e => .tilde (e.mapRefs f)
  | .array n e => .array (n.mapRefs f) (e.mapRefs f)
  | .map k v => .map (k.mapRefs f) (v.mapRefs f)
  | .chan d e => .chan d (e.mapRefs f)
  | .func s => .func (s.mapRefs f)
  | .struct fs => .struct (Fields.mapRefs f fs)
  | .interface fs => .interface (Fields.mapRefs f fs)
  | .selector e x => .selector (e.mapRefs f) x
  | .index e es => .index (e.mapRefs f) (Expr.mapRefsList f es)
  | .union es => .union (Expr.mapRefsList f es)
  | .call e es => .call (e.mapRefs f) (Expr.mapRefsList f es)
  | .binary op l r => .binary op (l.mapRefs f) (r.mapRefs f)
  | .unary op e => .unary op (e.mapRefs f)
  | .keyValue k v => .keyValue (k.mapRefs f) (v.mapRefs f)
  | .composite t es => .composite (Expr.mapRefsOption f t) (Expr.mapRefsList f es)
  | .funcLit s => .funcLit (s.mapRefs f)
  | .sliceExpr e bs => .sliceExpr (e.mapRefs f) (Expr.mapRefsOptions f bs)
  | .typeAssert e t => .typeAssert (e.mapRefs f) (t.mapRefs f)
  | .unsupported k => .unsupported k

/-- The references of each tree replaced. -/
def Expr.mapRefsList (f : Ident → Ident) : List Expr → List Expr
  | [] => []
  | e :: es => e.mapRefs f :: Expr.mapRefsList f es

/-- The references of a tree that may be absent replaced. -/
def Expr.mapRefsOption (f : Ident → Ident) : Option Expr → Option Expr
  | none => none
  | some e => some (e.mapRefs f)

/-- The references of the trees that are present replaced. -/
def Expr.mapRefsOptions (f : Ident → Ident) : List (Option Expr) → List (Option Expr)
  | [] => []
  | e :: es => Expr.mapRefsOption f e :: Expr.mapRefsOptions f es

/-- The references of a field's type replaced; its names are kept. -/
def Field.mapRefs (f : Ident → Ident) : Field → Field
  | ⟨xs, t, tag⟩ => ⟨xs, t.mapRefs f, tag⟩

/-- The references of a field list replaced. -/
def Fields.mapRefs (f : Ident → Ident) : List Field → List Field
  | [] => []
  | x :: xs => x.mapRefs f :: Fields.mapRefs f xs

/-- The references of a signature replaced. -/
def Signature.mapRefs (f : Ident → Ident) : Signature → Signature
  | ⟨ts, ps, rs⟩ => ⟨Fields.mapRefs f ts, Fields.mapRefs f ps, Fields.mapRefs f rs⟩

end

/-- Replacing references in a row is replacing them in each tree. -/
theorem Expr.mapRefsList_eq_map (f : Ident → Ident) (es : List Expr) :
    Expr.mapRefsList f es = es.map (Expr.mapRefs f) := by
  induction es with
  | nil => rfl
  | cons e es ih => simp [Expr.mapRefsList, ih]

/-- Replacing references in a field list is replacing them in each field. -/
theorem Fields.mapRefs_eq_map (f : Ident → Ident) (fs : Fields) :
    Fields.mapRefs f fs = fs.map (Field.mapRefs f) := by
  induction fs with
  | nil => rfl
  | cons x xs ih => simp [Fields.mapRefs, ih]

end GoSurface
