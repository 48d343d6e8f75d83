/-
# Trees without their references

Reading the references of a tree and replacing them are two traversals, and they agree: both meet
the same references in the same order.  What neither of them touches is the frame of the tree.  A
tree is its frame with its references put back from left to right, so there is only one tree with
a given frame and given references, and replacing references is known by what it does to these two.

* `Expr.refs_mapRefs`: replacing references goes reference by reference;
* `Expr.frame`, `Expr.frame_mapRefs`: all of a tree but its references, which replacing them keeps;
* `Expr.fill`, `Expr.fill_frame`: references put into a frame, which gives the tree back;
* `Expr.eq_iff_frame_refs`, `mapRefs_comp`: a tree is known by its frame and its references, so
  replacing references twice is replacing them once;
* `mapRefs_agrees_with_refs`: the two traversals agree.
-/
import GoSurface.Syntax.References

namespace GoSurface

/-! ## References replaced -/

mutual

/-- Replacing references in a tree replaces each of them. -/
theorem Expr.refs_mapRefs (f : Ident → Ident) : ∀ e : Expr, (e.mapRefs f).refs = e.refs.map f
  | .ident _ | .lit _ | .unsupported _ => rfl
  | .ellipsis e | .pointer e | .slice e | .paren e | .tilde e | .chan _ e | .selector e _
  | .unary _ e => Expr.refs_mapRefs f e
  | .array a b | .map a b | .binary _ a b | .keyValue a b | .typeAssert a b => by
    simp only [Expr.mapRefs, Expr.refs, List.map_append, Expr.refs_mapRefs f a,
      Expr.refs_mapRefs f b]
  | .func s | .funcLit s => Signature.refs_mapRefs f s
  | .struct fs | .interface fs => Fields.refs_mapRefs f fs
  | .index e es | .call e es => by
    simp only [Expr.mapRefs, Expr.refs, List.map_append, Expr.refs_mapRefs f e,
      Expr.refsList_mapRefs f es]
  | .union es => Expr.refsList_mapRefs f es
  | .composite t es => by
    simp only [Expr.mapRefs, Expr.refs, List.map_append, Expr.refsOption_mapRefs f t,
      Expr.refsList_mapRefs f es]
  | .sliceExpr e bs => by
    simp only [Expr.mapRefs, Expr.refs, List.map_append, Expr.refs_mapRefs f e,
      Expr.refsOptions_mapRefs f bs]

theorem Expr.refsList_mapRefs (f : Ident → Ident) :
    ∀ es : List Expr, Expr.refsList (Expr.mapRefsList f es) = (Expr.refsList es).map f
  | [] => rfl
  | e :: es => by
    simp only [Expr.mapRefsList, Expr.refsList, List.map_append, Expr.refs_mapRefs f e,
      Expr.refsList_mapRefs f es]

theorem Expr.refsOption_mapRefs (f : Ident → Ident) :
    ∀ e : Option Expr, Expr.refsOption (Expr.mapRefsOption f e) = (Expr.refsOption e).map f
  | none => rfl
  | some e => Expr.refs_mapRefs f e

theorem Expr.refsOptions_mapRefs (f : Ident → Ident) :
    ∀ es : List (Option Expr),
      Expr.refsOptions (Expr.mapRefsOptions f es) = (Expr.refsOptions es).map f
  | [] => rfl
  | e :: es => by
    simp only [Expr.mapRefsOptions, Expr.refsOptions, List.map_append,
      Expr.refsOption_mapRefs f e, Expr.refsOptions_mapRefs f es]

theorem Field.refs_mapRefs (f : Ident → Ident) : ∀ x : Field, (x.mapRefs f).refs = x.refs.map f
  | ⟨_, t, _⟩ => Expr.refs_mapRefs f t

theorem Fields.refs_mapRefs (f : Ident → Ident) :
    ∀ fs : List Field, Fields.refs (Fields.mapRefs f fs) = (Fields.refs fs).map f
  | [] => rfl
  | x :: fs => by
    simp only [Fields.mapRefs, Fields.refs, List.map_append, Field.refs_mapRefs f x,
      Fields.refs_mapRefs f fs]

theorem Signature.refs_mapRefs (f : Ident → Ident) :
    ∀ s : Signature, (s.mapRefs f).refs = s.refs.map f
  | ⟨ts, ps, rs⟩ => by
    simp only [Signature.mapRefs, Signature.refs, List.map_append, Fields.refs_mapRefs f ts,
      Fields.refs_mapRefs f ps, Fields.refs_mapRefs f rs]

end

/-! ## Frames -/

/-- The identifier that stands where a reference was taken out. -/
def Ident.blank : Ident :=
  ⟨"_", none⟩

mutual

/-- The tree with every reference taken out.  Forms, literals, operators, directions, tags, names of
fields and parameters, and selected names stay. -/
def Expr.frame : Expr → Expr
  | .ident _ => .ident .blank
  | .lit l => .lit l
  | .ellipsis e => .ellipsis e.frame
  | .pointer e => .pointer e.frame
  | .slice e => .slice e.frame
  | .paren e => .paren e.frame
  | .tilde e => .tilde e.frame
  | .array n e => .array n.frame e.frame
  | .map k v => .map k.frame v.frame
  | .chan d e => .chan d e.frame
  | .func s => .func s.frame
  | .struct fs => .struct (Fields.frame fs)
  | .interface fs => .interface (Fields.frame fs)
  | .selector e x => .selector e.frame x
  | .index e es => .index e.frame (Expr.frameList es)
  | .union es => .union (Expr.frameList es)
  | .call e es => .call e.frame (Expr.frameList es)
  | .binary op l r => .binary op l.frame r.frame
  | .unary op e => .unary op e.frame
  | .keyValue k v => .keyValue k.frame v.frame
  | .composite t es => .composite (Expr.frameOption t) (Expr.frameList es)
  | .funcLit s => .funcLit s.frame
  | .sliceExpr e bs => .sliceExpr e.frame (Expr.frameOptions bs)
  | .typeAssert e t => .typeAssert e.frame t.frame
  | .unsupported k => .unsupported k

def Expr.frameList : List Expr → List Expr
  | [] => []
  | e :: es => e.frame :: Expr.frameList es

def Expr.frameOption : Option Expr → Option Expr
  | none => none
  | some e => some e.frame

def Expr.frameOptions : List (Option Expr) → List (Option Expr)
  | [] => []
  | e :: es => Expr.frameOption e :: Expr.frameOptions es

def Field.frame : Field → Field
  | ⟨xs, t, tag⟩ => ⟨xs, t.frame, tag⟩

def Fields.frame : List Field → List Field
  | [] => []
  | f :: fs => f.frame :: Fields.frame fs

def Signature.frame : Signature → Signature
  | ⟨ts, ps, rs⟩ => ⟨Fields.frame ts, Fields.frame ps, Fields.frame rs⟩

end

mutual

/-- Replacing references keeps the frame. -/
theorem Expr.frame_mapRefs (f : Ident → Ident) : ∀ e : Expr, (e.mapRefs f).frame = e.frame
  | .ident _ | .lit _ | .unsupported _ => rfl
  | .ellipsis e | .pointer e | .slice e | .paren e | .tilde e | .chan _ e | .selector e _
  | .unary _ e => by simp only [Expr.mapRefs, Expr.frame, Expr.frame_mapRefs f e]
  | .array a b | .map a b | .binary _ a b | .keyValue a b | .typeAssert a b => by
    simp only [Expr.mapRefs, Expr.frame, Expr.frame_mapRefs f a, Expr.frame_mapRefs f b]
  | .func s | .funcLit s => by simp only [Expr.mapRefs, Expr.frame, Signature.frame_mapRefs f s]
  | .struct fs | .interface fs => by
    simp only [Expr.mapRefs, Expr.frame, Fields.frame_mapRefs f fs]
  | .index e es | .call e es => by
    simp only [Expr.mapRefs, Expr.frame, Expr.frame_mapRefs f e, Expr.frameList_mapRefs f es]
  | .union es => by simp only [Expr.mapRefs, Expr.frame, Expr.frameList_mapRefs f es]
  | .composite t es => by
    simp only [Expr.mapRefs, Expr.frame, Expr.frameOption_mapRefs f t,
      Expr.frameList_mapRefs f es]
  | .sliceExpr e bs => by
    simp only [Expr.mapRefs, Expr.frame, Expr.frame_mapRefs f e, Expr.frameOptions_mapRefs f bs]

theorem Expr.frameList_mapRefs (f : Ident → Ident) :
    ∀ es : List Expr, Expr.frameList (Expr.mapRefsList f es) = Expr.frameList es
  | [] => rfl
  | e :: es => by
    simp only [Expr.mapRefsList, Expr.frameList, Expr.frame_mapRefs f e,
      Expr.frameList_mapRefs f es]

theorem Expr.frameOption_mapRefs (f : Ident → Ident) :
    ∀ e : Option Expr, Expr.frameOption (Expr.mapRefsOption f e) = Expr.frameOption e
  | none => rfl
  | some e => by simp only [Expr.mapRefsOption, Expr.frameOption, Expr.frame_mapRefs f e]

theorem Expr.frameOptions_mapRefs (f : Ident → Ident) :
    ∀ es : List (Option Expr), Expr.frameOptions (Expr.mapRefsOptions f es) = Expr.frameOptions es
  | [] => rfl
  | e :: es => by
    simp only [Expr.mapRefsOptions, Expr.frameOptions, Expr.frameOption_mapRefs f e,
      Expr.frameOptions_mapRefs f es]

theorem Field.frame_mapRefs (f : Ident → Ident) : ∀ x : Field, (x.mapRefs f).frame = x.frame
  | ⟨_, t, _⟩ => by simp only [Field.mapRefs, Field.frame, Expr.frame_mapRefs f t]

theorem Fields.frame_mapRefs (f : Ident → Ident) :
    ∀ fs : List Field, Fields.frame (Fields.mapRefs f fs) = Fields.frame fs
  | [] => rfl
  | x :: fs => by
    simp only [Fields.mapRefs, Fields.frame, Field.frame_mapRefs f x, Fields.frame_mapRefs f fs]

theorem Signature.frame_mapRefs (f : Ident → Ident) :
    ∀ s : Signature, (s.mapRefs f).frame = s.frame
  | ⟨ts, ps, rs⟩ => by
    simp only [Signature.mapRefs, Signature.frame, Fields.frame_mapRefs f ts,
      Fields.frame_mapRefs f ps, Fields.frame_mapRefs f rs]

end

/-! ## Filling a frame -/

/-- What is left of a row of references is passed on from the first part to the second. -/
def fillNext {α β γ : Type} (build : α → β → γ) (first : α × List Ident)
    (second : List Ident → β × List Ident) : γ × List Ident :=
  (second first.2).map (build first.1) id

mutual

/-- The tree with the given references in place of its own, from left to right, and the references
that are left over.  Where they run out, references stay blank. -/
def Expr.fill : Expr → List Ident → Expr × List Ident
  | .ident _, xs => (.ident (xs.headD .blank), xs.tail)
  | .lit l, xs => (.lit l, xs)
  | .ellipsis e, xs => (e.fill xs).map .ellipsis id
  | .pointer e, xs => (e.fill xs).map .pointer id
  | .slice e, xs => (e.fill xs).map .slice id
  | .paren e, xs => (e.fill xs).map .paren id
  | .tilde e, xs => (e.fill xs).map .tilde id
  | .array n e, xs => fillNext .array (n.fill xs) fun ys => e.fill ys
  | .map k v, xs => fillNext .map (k.fill xs) fun ys => v.fill ys
  | .chan d e, xs => (e.fill xs).map (.chan d) id
  | .func s, xs => (s.fill xs).map .func id
  | .struct fs, xs => (Fields.fill fs xs).map .struct id
  | .interface fs, xs => (Fields.fill fs xs).map .interface id
  | .selector e x, xs => (e.fill xs).map (.selector · x) id
  | .index e es, xs => fillNext .index (e.fill xs) fun ys => Expr.fillList es ys
  | .union es, xs => (Expr.fillList es xs).map .union id
  | .call e es, xs => fillNext .call (e.fill xs) fun ys => Expr.fillList es ys
  | .binary op l r, xs => fillNext (.binary op) (l.fill xs) fun ys => r.fill ys
  | .unary op e, xs => (e.fill xs).map (.unary op) id
  | .keyValue k v, xs => fillNext .keyValue (k.fill xs) fun ys => v.fill ys
  | .composite t es, xs => fillNext .composite (Expr.fillOption t xs) fun ys => Expr.fillList es ys
  | .funcLit s, xs => (s.fill xs).map .funcLit id
  | .sliceExpr e bs, xs => fillNext .sliceExpr (e.fill xs) fun ys => Expr.fillOptions bs ys
  | .typeAssert e t, xs => fillNext .typeAssert (e.fill xs) fun ys => t.fill ys
  | .unsupported k, xs => (.unsupported k, xs)

def Expr.fillList : List Expr → List Ident → List Expr × List Ident
  | [], xs => ([], xs)
  | e :: es, xs => fillNext List.cons (e.fill xs) fun ys => Expr.fillList es ys

def Expr.fillOption : Option Expr → List Ident → Option Expr × List Ident
  | none, xs => (none, xs)
  | some e, xs => (e.fill xs).map some id

def Expr.fillOptions : List (Option Expr) → List Ident → List (Option Expr) × List Ident
  | [], xs => ([], xs)
  | e :: es, xs => fillNext List.cons (Expr.fillOption e xs) fun ys => Expr.fillOptions es ys

def Field.fill : Field → List Ident → Field × List Ident
  | ⟨names, t, tag⟩, xs => (t.fill xs).map (⟨names, ·, tag⟩) id

def Fields.fill : List Field → List Ident → List Field × List Ident
  | [], xs => ([], xs)
  | f :: fs, xs => fillNext List.cons (f.fill xs) fun ys => Fields.fill fs ys

def Signature.fill : Signature → List Ident → Signature × List Ident
  | ⟨ts, ps, rs⟩, xs =>
    fillNext (fun lists rs => ⟨lists.1, lists.2, rs⟩)
      (fillNext Prod.mk (Fields.fill ts xs) fun ys => Fields.fill ps ys) fun ys => Fields.fill rs ys

end

theorem fillNext_mk {α β γ : Type} (build : α → β → γ) (a : α) (xs : List Ident)
    (second : List Ident → β × List Ident) :
    fillNext build (a, xs) second = (second xs).map (build a) id :=
  rfl

mutual

/-- The frame of a tree, filled with its references, is the tree, and nothing that follows them is
used. -/
theorem Expr.fill_frame :
    ∀ (e : Expr) (rest : List Ident), e.frame.fill (e.refs ++ rest) = (e, rest)
  | .ident _, _ | .lit _, _ | .unsupported _, _ => rfl
  | .ellipsis e, rest | .pointer e, rest | .slice e, rest | .paren e, rest | .tilde e, rest
  | .chan _ e, rest | .selector e _, rest | .unary _ e, rest => by
    simp only [Expr.frame, Expr.refs, Expr.fill, Expr.fill_frame e rest, Prod.map_apply, id]
  | .array a b, rest | .map a b, rest | .binary _ a b, rest | .keyValue a b, rest
  | .typeAssert a b, rest => by
    simp only [Expr.frame, Expr.refs, Expr.fill, List.append_assoc, Expr.fill_frame a, fillNext_mk,
      Expr.fill_frame b, Prod.map_apply, id]
  | .func s, rest | .funcLit s, rest => by
    simp only [Expr.frame, Expr.refs, Expr.fill, Signature.fill_frame s rest, Prod.map_apply, id]
  | .struct fs, rest | .interface fs, rest => by
    simp only [Expr.frame, Expr.refs, Expr.fill, Fields.fill_frame fs rest, Prod.map_apply, id]
  | .index e es, rest | .call e es, rest => by
    simp only [Expr.frame, Expr.refs, Expr.fill, List.append_assoc, Expr.fill_frame e, fillNext_mk,
      Expr.fillList_frame es, Prod.map_apply, id]
  | .union es, rest => by
    simp only [Expr.frame, Expr.refs, Expr.fill, Expr.fillList_frame es rest, Prod.map_apply, id]
  | .composite t es, rest => by
    simp only [Expr.frame, Expr.refs, Expr.fill, List.append_assoc, Expr.fillOption_frame t,
      fillNext_mk, Expr.fillList_frame es, Prod.map_apply, id]
  | .sliceExpr e bs, rest => by
    simp only [Expr.frame, Expr.refs, Expr.fill, List.append_assoc, Expr.fill_frame e, fillNext_mk,
      Expr.fillOptions_frame bs, Prod.map_apply, id]

theorem Expr.fillList_frame :
    ∀ (es : List Expr) (rest : List Ident),
      Expr.fillList (Expr.frameList es) (Expr.refsList es ++ rest) = (es, rest)
  | [], _ => rfl
  | e :: es, rest => by
    simp only [Expr.frameList, Expr.refsList, Expr.fillList, List.append_assoc, Expr.fill_frame e,
      fillNext_mk, Expr.fillList_frame es, Prod.map_apply, id]

theorem Expr.fillOption_frame :
    ∀ (e : Option Expr) (rest : List Ident),
      Expr.fillOption (Expr.frameOption e) (Expr.refsOption e ++ rest) = (e, rest)
  | none, _ => rfl
  | some e, rest => by
    simp only [Expr.frameOption, Expr.refsOption, Expr.fillOption, Expr.fill_frame e rest,
      Prod.map_apply, id]

theorem Expr.fillOptions_frame :
    ∀ (es : List (Option Expr)) (rest : List Ident),
      Expr.fillOptions (Expr.frameOptions es) (Expr.refsOptions es ++ rest) = (es, rest)
  | [], _ => rfl
  | e :: es, rest => by
    simp only [Expr.frameOptions, Expr.refsOptions, Expr.fillOptions, List.append_assoc,
      Expr.fillOption_frame e, fillNext_mk, Expr.fillOptions_frame es, Prod.map_apply, id]

theorem Field.fill_frame :
    ∀ (f : Field) (rest : List Ident), f.frame.fill (f.refs ++ rest) = (f, rest)
  | ⟨_, t, _⟩, rest => by
    simp only [Field.frame, Field.refs, Field.fill, Expr.fill_frame t rest, Prod.map_apply, id]

theorem Fields.fill_frame :
    ∀ (fs : List Field) (rest : List Ident),
      Fields.fill (Fields.frame fs) (Fields.refs fs ++ rest) = (fs, rest)
  | [], _ => rfl
  | f :: fs, rest => by
    simp only [Fields.frame, Fields.refs, Fields.fill, List.append_assoc, Field.fill_frame f,
      fillNext_mk, Fields.fill_frame fs, Prod.map_apply, id]

theorem Signature.fill_frame :
    ∀ (s : Signature) (rest : List Ident), s.frame.fill (s.refs ++ rest) = (s, rest)
  | ⟨ts, ps, rs⟩, rest => by
    simp only [Signature.frame, Signature.refs, Signature.fill, List.append_assoc,
      Fields.fill_frame ts, fillNext_mk, Fields.fill_frame ps, Fields.fill_frame rs,
      Prod.map_apply, id]

end

/-! ## Frame and references -/

section Laws

variable {α : Type} {refs : α → List Ident} {mapRefs : (Ident → Ident) → α → α}
  {frame : α → α} {fill : α → List Ident → α × List Ident}

/-- What its frame gives back when it is filled with its references is known by the two. -/
theorem eq_of_frame_refs (hfill : ∀ a rest, fill (frame a) (refs a ++ rest) = (a, rest)) {a b : α}
    (hframe : frame a = frame b) (hrefs : refs a = refs b) : a = b := by
  have hfilled : (a, ([] : List Ident)) = (b, []) := by
    rw [← hfill a [], ← hfill b [], hframe, hrefs]
  exact congrArg Prod.fst hfilled

/-- So replacing references twice is replacing them once by what is put in the end, if it keeps the
frame and goes reference by reference. -/
theorem mapRefs_comp (hfill : ∀ a rest, fill (frame a) (refs a ++ rest) = (a, rest))
    (hframe : ∀ f a, frame (mapRefs f a) = frame a)
    (hrefs : ∀ f a, refs (mapRefs f a) = (refs a).map f) (f g : Ident → Ident) (a : α) :
    mapRefs g (mapRefs f a) = mapRefs (g ∘ f) a := by
  refine eq_of_frame_refs hfill ?_ ?_
  · rw [hframe, hframe, hframe]
  · rw [hrefs, hrefs, hrefs, List.map_map]

end Laws

/-- A tree is known by its frame and its references. -/
theorem Expr.eq_iff_frame_refs {a b : Expr} : a = b ↔ a.frame = b.frame ∧ a.refs = b.refs := by
  constructor
  · rintro rfl
    exact ⟨rfl, rfl⟩
  · rintro ⟨hframe, hrefs⟩
    exact eq_of_frame_refs Expr.fill_frame hframe hrefs

theorem Expr.mapRefs_id (e : Expr) : e.mapRefs id = e := by
  rw [Expr.eq_iff_frame_refs]
  exact ⟨e.frame_mapRefs id, by rw [Expr.refs_mapRefs, List.map_id]⟩

theorem Expr.mapRefs_mapRefs (f g : Ident → Ident) (e : Expr) :
    (e.mapRefs f).mapRefs g = e.mapRefs (g ∘ f) :=
  mapRefs_comp Expr.fill_frame Expr.frame_mapRefs Expr.refs_mapRefs f g e

theorem Expr.mapRefsList_mapRefs (f g : Ident → Ident) (es : List Expr) :
    Expr.mapRefsList g (Expr.mapRefsList f es) = Expr.mapRefsList (g ∘ f) es :=
  mapRefs_comp Expr.fillList_frame Expr.frameList_mapRefs Expr.refsList_mapRefs f g es

theorem Expr.mapRefsOption_mapRefs (f g : Ident → Ident) (e : Option Expr) :
    Expr.mapRefsOption g (Expr.mapRefsOption f e) = Expr.mapRefsOption (g ∘ f) e :=
  mapRefs_comp Expr.fillOption_frame Expr.frameOption_mapRefs Expr.refsOption_mapRefs f g e

theorem Fields.mapRefs_mapRefs (f g : Ident → Ident) (fs : List Field) :
    Fields.mapRefs g (Fields.mapRefs f fs) = Fields.mapRefs (g ∘ f) fs :=
  mapRefs_comp Fields.fill_frame Fields.frame_mapRefs Fields.refs_mapRefs f g fs

theorem Signature.mapRefs_mapRefs (f g : Ident → Ident) (s : Signature) :
    (s.mapRefs f).mapRefs g = s.mapRefs (g ∘ f) :=
  mapRefs_comp Signature.fill_frame Signature.frame_mapRefs Signature.refs_mapRefs f g s

/-- **Reading and replacing references agree.**  The references of a tree whose references have been
replaced are the replaced references, one by one and in the same order, and the rest of the tree is
kept.  The rest is all but the references: the two together make the tree.  So replacing each
reference by itself changes nothing, and replacing twice is replacing once by what is put in the
end. -/
theorem mapRefs_agrees_with_refs (f : Ident → Ident) (e : Expr) :
    (e.mapRefs f).refs = e.refs.map f ∧ (e.mapRefs f).frame = e.frame ∧
      (∀ a b : Expr, a = b ↔ a.frame = b.frame ∧ a.refs = b.refs) ∧
      e.mapRefs id = e ∧ ∀ g : Ident → Ident, (e.mapRefs f).mapRefs g = e.mapRefs (g ∘ f) :=
  ⟨e.refs_mapRefs f, e.frame_mapRefs f, fun _ _ => Expr.eq_iff_frame_refs, e.mapRefs_id,
    fun g => e.mapRefs_mapRefs f g⟩

-- In `func(n n) n.n` two of the four are references; the parameter and the selected name are not.
example : (Expr.func ⟨[], [⟨[⟨"n", none⟩], .ident ⟨"n", none⟩, none⟩],
    [⟨[], .selector (.ident ⟨"n", none⟩) ⟨"n", none⟩, none⟩]⟩).mapRefs (fun _ => ⟨"m", none⟩) =
    .func ⟨[], [⟨[⟨"n", none⟩], .ident ⟨"m", none⟩, none⟩],
      [⟨[], .selector (.ident ⟨"m", none⟩) ⟨"n", none⟩, none⟩]⟩ := rfl

end GoSurface
