/-
# Canonical forms

Structural equality ignores four things: how the slots of a field list are grouped, the names of
type parameters, parameters and results, what a name is selected from, and the ordinals of bindings
that are not those of constants.  The canonical form of a tree is the tree without them.  Among
trees that bind the same names, and none of their members, two trees are the same exactly when they
have one canonical form and all that is compared in them is understood.

* `Expr.canon`: the canonical form, at every depth;
* `Expr.canon_eq_canon_iff`: canonical forms are equal part by part;
* `Expr.BoundAs`: the references to some names are bound, and no others;
* `Expr.same_iff_canon_eq`: equality is equality of canonical forms.
-/
import GoSurface.Proofs.Binding
import GoSurface.Proofs.Members
import GoSurface.Proofs.Plain

namespace GoSurface

/-! ## Identifiers -/

/-- The binding without an ordinal that does not count. -/
def Binding.canon (b : Binding) : Binding :=
  match b.kind with
  | .constant => b
  | _ => { b with ordinal := none }

/-- The identifier with its binding in canonical form. -/
def Ident.canon (x : Ident) : Ident :=
  { x with binding := x.binding.map Binding.canon }

/-- Bindings agree when their canonical forms are equal. -/
theorem Binding.same_iff_canon (a b : Binding) : a.same b = true ↔ a.canon = b.canon := by
  obtain ⟨k, n, i⟩ := a
  obtain ⟨l, m, j⟩ := b
  by_cases hkind : k = l
  · subst hkind
    cases k <;> simp [Binding.same, Binding.canon]
  · cases k <;> cases l <;> simp_all [Binding.same, Binding.canon]

/-- Identifiers of which both or neither are bound are the same when their canonical forms are
equal. -/
theorem Ident.same_iff_canon {x y : Ident}
    (h : x.name = y.name → (x.isBound = true ↔ y.isBound = true)) :
    x.same y = true ↔ x.canon = y.canon := by
  obtain ⟨n, a⟩ := x
  obtain ⟨m, b⟩ := y
  by_cases hname : n = m
  · subst hname
    cases a <;> cases b <;>
      simp_all [Ident.same, Ident.canon, Ident.isBound, Binding.same_iff_canon]
  · simp [Ident.same, Ident.canon, hname]

/-! ## Trees -/

/-- An empty tree in the place of one that is dropped. -/
def Expr.blank : Expr :=
  .struct []

mutual

/-- The canonical form of a tree. -/
def Expr.canon : Expr → Expr
  | .ident x => .ident x.canon
  | .lit l => .lit l
  | .ellipsis e => .ellipsis e.canon
  | .pointer e => .pointer e.canon
  | .slice e => .slice e.canon
  | .paren e => .paren e.canon
  | .tilde e => .tilde e.canon
  | .array n e => .array n.canon e.canon
  | .map k v => .map k.canon v.canon
  | .chan d e => .chan d e.canon
  | .func s => .func s.canon
  | .struct fs => .struct (Fields.canon true fs)
  | .interface fs => .interface (Fields.canon true fs)
  | .selector _ x => .selector .blank x.canon
  | .index e es => .index e.canon (Expr.canonList es)
  | .union es => .union (Expr.canonList es)
  | .call e es => .call e.canon (Expr.canonList es)
  | .binary op l r => .binary op l.canon r.canon
  | .unary op e => .unary op e.canon
  | .keyValue k v => .keyValue k.canon v.canon
  | .composite t es => .composite (Expr.canonOption t) (Expr.canonList es)
  | .funcLit s => .funcLit s.canon
  | .sliceExpr e bs => .sliceExpr e.canon (Expr.canonOptions bs)
  | .typeAssert e t => .typeAssert e.canon t.canon
  | .unsupported k => .unsupported k

def Expr.canonList : List Expr → List Expr
  | [] => []
  | e :: es => e.canon :: Expr.canonList es

def Expr.canonOption : Option Expr → Option Expr
  | none => none
  | some e => some e.canon

def Expr.canonOptions : List (Option Expr) → List (Option Expr)
  | [] => []
  | e :: es => Expr.canonOption e :: Expr.canonOptions es

def Field.canon (named : Bool) : Field → List Field
  | ⟨xs, t, tag⟩ =>
    (slotNames xs).map fun x =>
      ⟨if named then (x.map Ident.canon).toList else [], t.canon, tag⟩

def Fields.canon (named : Bool) : List Field → List Field
  | [] => []
  | f :: fs => f.canon named ++ Fields.canon named fs

/-- The canonical form of a signature, in which no names count. -/
def Signature.canon : Signature → Signature
  | ⟨ts, ps, rs⟩ => ⟨Fields.canon false ts, Fields.canon false ps, Fields.canon false rs⟩

end

/-! ## Field lists and signatures -/

def Slot.canon (named : Bool) (s : Slot) : Slot :=
  ⟨if named then s.name.map Ident.canon else none, s.type.canon, s.tag⟩

/-- A canonical field list has a field for each slot. -/
theorem Fields.canon_eq (named : Bool) (fs : Fields) :
    Fields.canon named fs = ((Fields.slots fs).map (Slot.canon named)).map Slot.field := by
  induction fs with
  | nil => rfl
  | cons f fs ih =>
    obtain ⟨xs, t, tag⟩ := f
    have hfield : (⟨xs, t, tag⟩ : Field).canon named =
        ((⟨xs, t, tag⟩ : Field).slots.map (Slot.canon named)).map Slot.field := by
      rw [Field.canon, Field.slots, List.map_map, List.map_map]
      apply List.map_congr_left
      intro x _
      cases named <;> rfl
    rw [Fields.canon, ih, Fields.slots_cons, List.map_append, List.map_append, hfield]

theorem Fields.slots_canon (named : Bool) (fs : Fields) :
    Fields.slots (Fields.canon named fs) = (Fields.slots fs).map (Slot.canon named) := by
  rw [Fields.canon_eq, Fields.slots_map_field]

@[simp] theorem Fields.tags_canon (named : Bool) (fs : Fields) :
    Fields.tags (Fields.canon named fs) = Fields.tags fs := by
  rw [Fields.tags, Fields.slots_canon, List.map_map]
  rfl

/-- Names that count keep their spelling. -/
@[simp] theorem Fields.labels_canon (fs : Fields) :
    Fields.labels (Fields.canon true fs) =
      (Fields.labels fs).map (Option.map Ident.canon) := by
  rw [Fields.labels, Fields.slots_canon, Fields.labels, List.map_map, List.map_map]
  rfl

@[simp] theorem Fields.slotTypes_canon (named : Bool) (fs : Fields) :
    Fields.slotTypes (Fields.canon named fs) = (Fields.slotTypes fs).map Expr.canon := by
  rw [Fields.slotTypes, Fields.slots_canon, Fields.slotTypes, List.map_map, List.map_map]
  rfl

@[simp] theorem Signature.tags_canon (s : Signature) : s.canon.tags = s.tags := by
  cases s
  simp [Signature.tags, Signature.canon]

@[simp] theorem Signature.slotTypes_canon (s : Signature) :
    s.canon.slotTypes = s.slotTypes.map Expr.canon := by
  cases s
  simp [Signature.slotTypes, Signature.canon]

theorem Expr.canonList_eq_map (es : List Expr) : Expr.canonList es = es.map Expr.canon := by
  induction es with
  | nil => rfl
  | cons e es ih => simp [Expr.canonList, ih]

theorem Expr.canonOption_eq_map (e : Option Expr) : Expr.canonOption e = e.map Expr.canon := by
  cases e <;> rfl

/-- A canonical row with gaps is canonical entry by entry. -/
theorem Expr.canonOptions_eq_map (es : List (Option Expr)) :
    Expr.canonOptions es = es.map (Option.map Expr.canon) := by
  induction es with
  | nil => rfl
  | cons e es ih => simp [Expr.canonOptions, Expr.canonOption_eq_map, ih]

/-! ## Canonical forms by parts -/

@[simp] theorem Expr.form_canon (e : Expr) : e.canon.form = e.form := by
  cases e <;> simp [Expr.canon, Expr.form, Expr.canonOption_eq_map, Expr.canonOptions_eq_map]

@[simp] theorem Expr.labels_canon (e : Expr) :
    e.canon.labels = e.labels.map (Option.map Ident.canon) := by
  cases e <;> simp [Expr.canon, Expr.labels]

/-- The parts of a canonical form are canonical. -/
@[simp] theorem Expr.parts_canon (e : Expr) : e.canon.parts = e.parts.map Expr.canon := by
  cases e with
  | composite t es =>
    cases t <;> simp [Expr.canon, Expr.parts, Expr.canonOption, Expr.canonList_eq_map]
  | sliceExpr e bs =>
    simp [Expr.canon, Expr.parts, Expr.canonOptions_eq_map, List.flatMap_map, List.map_flatMap,
      Option.toList_map]
  | _ => simp [Expr.canon, Expr.parts, Expr.canonList_eq_map]

/-- Slots are told by name, type and tag. -/
theorem slots_eq_of_columns {ss ts : List Slot} (hname : ss.map Slot.name = ts.map Slot.name)
    (htype : ss.map Slot.type = ts.map Slot.type) (htag : ss.map Slot.tag = ts.map Slot.tag) :
    ss = ts := by
  induction ss generalizing ts with
  | nil => simpa using hname
  | cons s ss ih =>
    cases ts with
    | nil => simp at hname
    | cons t ts =>
      simp only [List.map_cons, List.cons.injEq] at hname htype htag
      obtain ⟨x, e, tag⟩ := s
      obtain ⟨y, f, tag'⟩ := t
      obtain ⟨rfl, hname⟩ := hname
      obtain ⟨rfl, htype⟩ := htype
      obtain ⟨rfl, htag⟩ := htag
      rw [ih hname htype htag]

/-- Canonical field lists are told by tags, by the canonical forms of the types, and by the names if
these count. -/
theorem Fields.canon_eq_of_columns {named : Bool} {fs gs : Fields}
    (htags : Fields.tags fs = Fields.tags gs)
    (hlabels : named = true →
      (Fields.labels fs).map (Option.map Ident.canon) =
        (Fields.labels gs).map (Option.map Ident.canon))
    (htypes : (Fields.slotTypes fs).map Expr.canon = (Fields.slotTypes gs).map Expr.canon) :
    Fields.canon named fs = Fields.canon named gs := by
  rw [Fields.canon_eq, Fields.canon_eq]
  congr 1
  have hlength := Fields.length_slotTypes_eq htags
  apply slots_eq_of_columns
  · cases named with
    | true => simpa [Fields.labels, Slot.canon, Function.comp_def] using hlabels rfl
    | false =>
      have hslots : (Fields.slots fs).length = (Fields.slots gs).length := by
        simpa [Fields.slotTypes] using hlength
      simp [Slot.canon, Function.comp_def, List.map_const', hslots]
  · simpa [Fields.slotTypes, Slot.canon, Function.comp_def] using htypes
  · simpa [Fields.tags, Slot.canon, Function.comp_def] using htags

/-- Canonical signatures are told by tags and by the canonical forms of the types. -/
theorem Signature.canon_eq_of_columns {s t : Signature} (htags : s.tags = t.tags)
    (htypes : s.slotTypes.map Expr.canon = t.slotTypes.map Expr.canon) : s.canon = t.canon := by
  obtain ⟨ts, ps, rs⟩ := s
  obtain ⟨us, qs, vs⟩ := t
  simp only [Signature.tags, List.cons.injEq, and_true] at htags
  obtain ⟨ht, hp, hr⟩ := htags
  simp only [Signature.slotTypes, List.map_append] at htypes
  -- Equal tags cut the row of types at the same places on both sides.
  have hlt := Fields.length_slotTypes_eq ht
  have hlp := Fields.length_slotTypes_eq hp
  obtain ⟨hleft, hresults⟩ := List.append_inj htypes (by simp [hlt, hlp])
  obtain ⟨htypeParams, hparams⟩ := List.append_inj hleft (by simp [hlt])
  have hlist : ∀ {fs gs : Fields}, Fields.tags fs = Fields.tags gs →
      (Fields.slotTypes fs).map Expr.canon = (Fields.slotTypes gs).map Expr.canon →
      Fields.canon false fs = Fields.canon false gs :=
    fun htags htypes =>
      Fields.canon_eq_of_columns htags (fun h => absurd h Bool.false_ne_true) htypes
  rw [Signature.canon, Signature.canon, hlist ht htypeParams, hlist hp hparams, hlist hr hresults]

/-- Rows with the same gaps are told by what they have elsewhere. -/
theorem map_option_eq_of_gaps {α β : Type} {f : α → β} {xs ys : List (Option α)}
    (hgaps : xs.map Option.isSome = ys.map Option.isSome)
    (hrest : (xs.flatMap Option.toList).map f = (ys.flatMap Option.toList).map f) :
    xs.map (Option.map f) = ys.map (Option.map f) := by
  induction xs generalizing ys with
  | nil => simpa using hgaps
  | cons x xs ih =>
    cases ys with
    | nil => simp at hgaps
    | cons y ys =>
      obtain ⟨hfirst, hothers⟩ := List.cons.inj hgaps
      rcases x with _ | a <;> rcases y with _ | b
      · exact congrArg (none :: ·) (ih hothers hrest)
      · cases hfirst
      · cases hfirst
      · obtain ⟨hhead, htail⟩ := List.cons.inj hrest
        rw [List.map_cons, List.map_cons, Option.map_some, Option.map_some, hhead,
          ih hothers htail]

/-- **Canonical forms by parts.**  Trees whose form is understood have one canonical form when their
forms are equal, their labels differ in bindings that do not count at most, and their parts have one
canonical form each. -/
theorem Expr.canon_eq_canon_iff {a b : Expr} (h : a.form ≠ .unsupported) :
    a.canon = b.canon ↔ a.form = b.form ∧
      a.labels.map (Option.map Ident.canon) = b.labels.map (Option.map Ident.canon) ∧
      a.parts.map Expr.canon = b.parts.map Expr.canon := by
  constructor
  · intro hcanon
    refine ⟨?_, ?_, ?_⟩
    · rw [← Expr.form_canon, hcanon, Expr.form_canon]
    · rw [← Expr.labels_canon, hcanon, Expr.labels_canon]
    · rw [← Expr.parts_canon, hcanon, Expr.parts_canon]
  · rintro ⟨hform, hlabels, hparts⟩
    -- Roots of one form are of one kind.
    cases a <;> cases b <;> try exact Form.noConfusion hform
    case func.func s t =>
      exact congrArg Expr.func (Signature.canon_eq_of_columns (Form.func.inj hform) hparts)
    case funcLit.funcLit s t =>
      exact congrArg Expr.funcLit (Signature.canon_eq_of_columns (Form.funcLit.inj hform) hparts)
    case struct.struct fs gs =>
      exact congrArg Expr.struct
        (Fields.canon_eq_of_columns (Form.struct.inj hform) (fun _ => hlabels) hparts)
    case interface.interface fs gs =>
      exact congrArg Expr.interface
        (Fields.canon_eq_of_columns (Form.interface.inj hform) (fun _ => hlabels) hparts)
    case composite.composite t es u gs =>
      simp only [Expr.parts, List.map_append] at hparts
      have hlength : t.toList.length = u.toList.length := by
        have hpresent := Form.composite.inj hform
        cases t <;> cases u <;> simp_all
      obtain ⟨htype, hrow⟩ := List.append_inj hparts (by simpa using hlength)
      rw [Expr.canon, Expr.canon, Expr.canonOption_eq_map, Expr.canonOption_eq_map,
        Expr.canonList_eq_map, Expr.canonList_eq_map, hrow]
      cases t <;> cases u <;> simp_all
    case sliceExpr.sliceExpr e bs f cs =>
      have hbounds := map_option_eq_of_gaps (Form.sliceExpr.inj hform) (List.cons.inj hparts).2
      rw [Expr.canon, Expr.canon, Expr.canonOptions_eq_map, Expr.canonOptions_eq_map, hbounds,
        (List.cons.inj hparts).1]
    case unsupported.unsupported => exact absurd rfl h
    all_goals
      simp_all [Expr.canon, Expr.labels, Expr.parts, Expr.form, Expr.canonList_eq_map]

/-! ## Equality -/

/-- Of the references that are compared, those to certain names are bound and no others, and the
names of members are open.  Resolving leaves trees that bound nothing before in this state, with the
package-level names that are not hidden. -/
structure Expr.BoundAs (bound : String → Prop) (e : Expr) : Prop where
  refs : ∀ x : Ident, e.Compares (.ident x) → (x.isBound = true ↔ bound x.name)
  members : e.MembersOpen

theorem Expr.BoundAs.part {bound : String → Prop} {e c : Expr} (h : e.BoundAs bound)
    (hc : c ∈ e.parts) : c.BoundAs bound where
  refs x hx := h.refs x (.part hc hx)
  members := (Expr.membersOpen_iff.mp h.members).2 c hc

/-- The labels of two roots of one form agree when their canonical forms are equal. -/
theorem Expr.BoundAs.labels_iff {bound : String → Prop} {a b : Expr} (ha : a.BoundAs bound)
    (hb : b.BoundAs bound) (hform : a.form = b.form) :
    List.Forall₂ (fun i j => NameMode.significant.agree i j = true) a.labels b.labels ↔
      a.labels.map (Option.map Ident.canon) = b.labels.map (Option.map Ident.canon) := by
  rw [← forall₂_iff_map_eq]
  apply forall₂_congr_mem
  intro i hi j hj
  cases i with
  | none => cases j <;> simp [NameMode.agree]
  | some x =>
    cases j with
    | none => simp [NameMode.agree]
    | some y =>
      simp only [NameMode.agree, Option.map_some, Option.some.injEq]
      apply Ident.same_iff_canon
      intro hname
      by_cases hident : a.form = .ident
      · obtain ⟨x', rfl⟩ := Expr.exists_ident_of_form hident
        obtain ⟨y', rfl⟩ := Expr.exists_ident_of_form (hform ▸ hident)
        simp only [Expr.labels, List.mem_singleton, Option.some.injEq] at hi hj
        subst hi hj
        rw [ha.refs x (.root _), hb.refs y (.root _), hname]
      · -- The names of members are open on both sides.
        have hx := ha.members a (.root a) hident x hi
        have hy := hb.members b (.root b) (hform ▸ hident) y hj
        rw [hx, hy]

/-- **Equality of canonical forms.**  Trees that bind the same names are the same exactly when they
have one canonical form and nothing that is compared in them is of a form not understood. -/
theorem Expr.same_iff_canon_eq {bound : String → Prop} {a b : Expr} (ha : a.BoundAs bound)
    (hb : b.BoundAs bound) :
    a.same b = true ↔
      a.canon = b.canon ∧ ∀ kind, ¬ a.Compares (.unsupported kind) := by
  induction a using Expr.partInduction generalizing b with
  | step a ih =>
    by_cases hknown : a.form = .unsupported
    · obtain ⟨kind, rfl⟩ := Expr.form_eq_unsupported_iff.mp hknown
      exact iff_of_false Bool.false_ne_true fun h => h.2 kind (.root _)
    · have hparts : List.Forall₂ (fun c d => c.same d = true) a.parts b.parts ↔
          (∀ c ∈ a.parts, ∀ kind, ¬ c.Compares (.unsupported kind)) ∧
            a.parts.map Expr.canon = b.parts.map Expr.canon := by
        rw [← forall₂_iff_map_eq, ← List.forall₂_and_left]
        apply forall₂_congr_mem
        intro c hc d hd
        rw [ih c hc (ha.part hc) (hb.part hd), and_comm]
      have hclean : (∀ kind, ¬ a.Compares (.unsupported kind)) ↔
          ∀ c ∈ a.parts, ∀ kind, ¬ c.Compares (.unsupported kind) := by
        constructor
        · intro h c hc kind hx
          exact h kind (.part hc hx)
        · intro h kind hx
          rcases Expr.compares_iff.mp hx with hroot | ⟨c, hc, hx⟩
          · exact hknown (hroot ▸ rfl)
          · exact h c hc kind hx
      rw [Expr.same_iff, Expr.canon_eq_canon_iff hknown, hparts, hclean]
      constructor
      · rintro ⟨hform, -, hlabels, hunderstood, hcanon⟩
        exact ⟨⟨hform, (ha.labels_iff hb hform).mp hlabels, hcanon⟩, hunderstood⟩
      · rintro ⟨⟨hform, hlabels, hcanon⟩, hunderstood⟩
        exact ⟨hform, hknown, (ha.labels_iff hb hform).mpr hlabels, hunderstood, hcanon⟩

/-! ## Resolved trees -/

/-- What is compared in a tree with its references replaced is a replaced reference. -/
theorem Expr.exists_of_compares_mapRefs {f : Ident → Ident} {e : Expr} {x : Ident}
    (h : (e.mapRefs f).Compares (.ident x)) : ∃ y, e.Compares (.ident y) ∧ f y = x := by
  induction e using Expr.partInduction with
  | step e ih =>
    rcases Expr.compares_iff.mp h with hroot | ⟨c, hc, hx⟩
    · have hform : e.form = .ident := by rw [← Expr.form_mapRefs f, ← hroot, Expr.form]
      obtain ⟨y, rfl⟩ := Expr.exists_ident_of_form hform
      exact ⟨y, .root _, (Expr.ident.inj hroot).symm⟩
    · rw [Expr.parts_mapRefs] at hc
      obtain ⟨d, hd, rfl⟩ := List.mem_map.mp hc
      obtain ⟨y, hy, hfy⟩ := ih d hd hx
      exact ⟨y, .part hd hy, hfy⟩

/-- Resolving a tree that bound nothing binds the references to package-level names that are not
hidden. -/
theorem Expr.boundAs_resolve {bound : String → Prop} {scope : Scope} {hidden : List String}
    (hbound : ∀ name, bound name ↔ name ∉ hidden ∧ (scope.lookup name).isSome = true) {e : Expr}
    (hopen : ∀ x ∈ e.idents, x.isBound = false) :
    (e.mapRefs (scope.bind hidden)).BoundAs bound where
  refs x hx := by
    obtain ⟨y, hy, rfl⟩ := Expr.exists_of_compares_mapRefs hx
    have hfree := hopen y (Expr.mem_idents_of_compares hy (List.mem_singleton_self y))
    rw [hbound, Scope.name_bind, Scope.bind]
    by_cases hhidden : y.name ∈ hidden
    · simp [hhidden, hfree]
    · cases scope.lookup y.name with
      | none => simp [hhidden, hfree]
      | some b => simp [hhidden, Ident.isBound]
  members := (Expr.membersOpen_of_idents hopen).mapRefs _

/-- The type of a function that fills buffers of a size that the package fixes. -/
def fillType (params : Fields) (typeParam package : String) : Expr :=
  .func ⟨[⟨[⟨typeParam, none⟩], .ident ⟨"any", none⟩, none⟩],
    params ++ [⟨[], .array (.ident ⟨"size", none⟩) (.ident ⟨"byte", none⟩), none⟩],
    [⟨[], .selector (.ident ⟨package, none⟩) ⟨"Reader", none⟩, none⟩]⟩

/-- It with two grouped parameters, where the size is a variable with an ordinal. -/
def groupedFill : Expr :=
  (fillType [⟨[⟨"a", none⟩, ⟨"b", none⟩], .ident ⟨"int", none⟩, none⟩] "T" "io").mapRefs
    (Scope.bind [("size", ⟨.variable, "size", some 4⟩)] ["T"])

/-- It with the parameters apart, other names and another package, and without the ordinal. -/
def spreadFill : Expr :=
  (fillType [⟨[], .ident ⟨"int", none⟩, none⟩, ⟨[⟨"n", none⟩], .ident ⟨"int", none⟩, none⟩] "U"
    "bufio").mapRefs (Scope.bind [("size", ⟨.variable, "size", none⟩)] ["U"])

/-- All four things that do not count differ between two trees that are the same. -/
theorem groupedFill_same_spreadFill :
    groupedFill.BoundAs (· = "size") ∧ spreadFill.BoundAs (· = "size") ∧
      groupedFill.same spreadFill = true := by
  have hbound : ∀ (b : Binding) (hidden : String), hidden ≠ "size" → ∀ name : String,
      name = "size" ↔ name ∉ [hidden] ∧ (List.lookup name [("size", b)]).isSome = true := by
    intro b hidden hne name
    constructor
    · rintro rfl
      simp [hne.symm]
    · rintro ⟨-, hsome⟩
      by_contra hother
      simp [List.lookup_cons, beq_eq_false_iff_ne.mpr hother] at hsome
  have hgrouped : groupedFill.BoundAs (· = "size") :=
    Expr.boundAs_resolve (hbound _ "T" (by decide)) (by decide)
  have hspread : spreadFill.BoundAs (· = "size") :=
    Expr.boundAs_resolve (hbound _ "U" (by decide)) (by decide)
  exact ⟨hgrouped, hspread, (Expr.same_iff_canon_eq hgrouped hspread).mpr
    ⟨rfl, (Expr.same_self_iff groupedFill).mp rfl⟩⟩

end GoSurface
