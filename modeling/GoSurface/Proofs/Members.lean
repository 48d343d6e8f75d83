/-
# Names of members

In a package that has not been resolved no identifier is bound.  Resolving binds references and
declared names, so what is compared of a resolved package still has members, that is struct fields,
interface elements and selected names, whose names are open.

* `Expr.idents`, `Package.Unbound`: all identifiers of a tree, and packages that bind none;
* `Fields.slots_exportedOnly`: the slots that are left of a struct;
* `Package.follow_of_forall`: what a declaration stands for is written in some declaration;
* `Package.Unbound.membersOpen`: the names of compared members are open.
-/
import GoSurface.Proofs.Resolution
import GoSurface.Proofs.Surface

namespace GoSurface

/-! ## All identifiers -/

mutual

/-- The identifiers of a tree: references, selected names, and the names of fields, elements,
parameters, results and type parameters. -/
def Expr.idents : Expr → List Ident
  | .ident x => [x]
  | .lit _ => []
  | .ellipsis e => e.idents
  | .pointer e => e.idents
  | .slice e => e.idents
  | .paren e => e.idents
  | .tilde e => e.idents
  | .array n e => n.idents ++ e.idents
  | .map k v => k.idents ++ v.idents
  | .chan _ e => e.idents
  | .func s => s.idents
  | .struct fs => Fields.idents fs
  | .interface fs => Fields.idents fs
  | .selector e x => e.idents ++ [x]
  | .index e es => e.idents ++ Expr.identsList es
  | .union es => Expr.identsList es
  | .call e es => e.idents ++ Expr.identsList es
  | .binary _ l r => l.idents ++ r.idents
  | .unary _ e => e.idents
  | .keyValue k v => k.idents ++ v.idents
  | .composite t es => Expr.identsOption t ++ Expr.identsList es
  | .funcLit s => s.idents
  | .sliceExpr e bs => e.idents ++ Expr.identsOptions bs
  | .typeAssert e t => e.idents ++ t.idents
  | .unsupported _ => []

def Expr.identsList : List Expr → List Ident
  | [] => []
  | e :: es => e.idents ++ Expr.identsList es

def Expr.identsOption : Option Expr → List Ident
  | none => []
  | some e => e.idents

def Expr.identsOptions : List (Option Expr) → List Ident
  | [] => []
  | e :: es => Expr.identsOption e ++ Expr.identsOptions es

def Field.idents : Field → List Ident
  | ⟨xs, t, _⟩ => xs ++ t.idents

def Fields.idents : List Field → List Ident
  | [] => []
  | f :: fs => f.idents ++ Fields.idents fs

def Signature.idents : Signature → List Ident
  | ⟨ts, ps, rs⟩ => Fields.idents ts ++ Fields.idents ps ++ Fields.idents rs

end

def Decl.idents : Decl → List Ident
  | .func f => f.name :: (Fields.idents (f.recv.getD []) ++ f.sig.idents)
  | .type t => t.name :: (Fields.idents t.typeParams ++ t.type.idents)
  | .value v => v.names ++ Expr.identsOption v.type ++ Expr.identsList v.values

/-- No identifier of the package is bound. -/
def Package.Unbound (p : Package) : Prop :=
  ∀ d ∈ p.decls, ∀ x ∈ d.idents, x.isBound = false

instance (p : Package) : Decidable p.Unbound :=
  inferInstanceAs (Decidable (∀ d ∈ p.decls, ∀ x ∈ d.idents, x.isBound = false))

/-- A row has the identifiers of its trees. -/
theorem Expr.mem_identsList {es : List Expr} {x : Ident} :
    x ∈ Expr.identsList es ↔ ∃ e ∈ es, x ∈ e.idents := by
  induction es with
  | nil => simp [Expr.identsList]
  | cons e es ih => simp [Expr.identsList, ih]

theorem Expr.mem_identsOption {e : Option Expr} {x : Ident} :
    x ∈ Expr.identsOption e ↔ ∃ t ∈ e.toList, x ∈ t.idents := by
  cases e <;> simp [Expr.identsOption]

/-- A row with gaps has the identifiers of the trees in it. -/
theorem Expr.mem_identsOptions {es : List (Option Expr)} {x : Ident} :
    x ∈ Expr.identsOptions es ↔ ∃ t ∈ es.flatMap Option.toList, x ∈ t.idents := by
  induction es with
  | nil => simp [Expr.identsOptions]
  | cons e es ih =>
    simp only [Expr.identsOptions, List.mem_append, Expr.mem_identsOption, ih,
      List.flatMap_cons, or_and_right, exists_or]

/-- A field list has the names of its fields and the identifiers of their types. -/
theorem Fields.mem_idents {fs : Fields} {x : Ident} :
    x ∈ Fields.idents fs ↔ ∃ f ∈ fs, x ∈ f.names ∨ x ∈ f.type.idents := by
  induction fs with
  | nil => simp [Fields.idents]
  | cons f fs ih =>
    cases f
    simp [Fields.idents, Field.idents, ih, or_assoc]

/-- The name of a slot is a name of the list. -/
theorem Fields.mem_idents_of_label {fs : Fields} {x : Ident} (h : some x ∈ Fields.labels fs) :
    x ∈ Fields.idents fs := by
  obtain ⟨s, hs, hx⟩ := List.mem_map.mp h
  obtain ⟨f, hf, hslot⟩ := List.mem_flatMap.mp hs
  obtain ⟨y, hy, rfl⟩ := List.mem_map.mp hslot
  have hname : x ∈ f.names := by
    cases hnames : f.names <;> simp_all [slotNames]
  exact Fields.mem_idents.mpr ⟨f, hf, Or.inl hname⟩

theorem Fields.mem_idents_of_slotType {fs : Fields} {t : Expr} {x : Ident}
    (ht : t ∈ Fields.slotTypes fs) (hx : x ∈ t.idents) : x ∈ Fields.idents fs := by
  obtain ⟨f, hf, rfl⟩ := Fields.mem_slotTypes.mp ht
  exact Fields.mem_idents.mpr ⟨f, hf, Or.inr hx⟩

/-- The identifiers of a signature's types are identifiers of the signature. -/
theorem Signature.mem_idents_of_slotType {s : Signature} {t : Expr} {x : Ident}
    (ht : t ∈ s.slotTypes) (hx : x ∈ t.idents) : x ∈ s.idents := by
  cases s with
  | mk ts ps rs =>
    simp only [Signature.slotTypes, List.mem_append] at ht
    simp only [Signature.idents, List.mem_append]
    rcases ht with (ht | ht) | ht
    · exact Or.inl (Or.inl (Fields.mem_idents_of_slotType ht hx))
    · exact Or.inl (Or.inr (Fields.mem_idents_of_slotType ht hx))
    · exact Or.inr (Fields.mem_idents_of_slotType ht hx)

/-- The labels at the root of a tree are identifiers of the tree. -/
theorem Expr.mem_idents_of_label {e : Expr} {x : Ident} (h : some x ∈ e.labels) :
    x ∈ e.idents := by
  cases e with
  | ident y =>
    simp only [Expr.labels, List.mem_singleton, Option.some.injEq] at h
    simp [Expr.idents, h]
  | selector e y =>
    simp only [Expr.labels, List.mem_singleton, Option.some.injEq] at h
    simp [Expr.idents, h]
  | struct fs | interface fs => exact Fields.mem_idents_of_label h
  | _ => exact absurd h List.not_mem_nil

/-- The identifiers of a part are identifiers of the tree. -/
theorem Expr.mem_idents_of_part {e c : Expr} {x : Ident} (hc : c ∈ e.parts)
    (hx : x ∈ c.idents) : x ∈ e.idents := by
  cases e with
  | func s | funcLit s => exact Signature.mem_idents_of_slotType hc hx
  | struct fs | interface fs => exact Fields.mem_idents_of_slotType hc hx
  | index e es | call e es =>
    rcases List.mem_cons.mp hc with rfl | hc
    · exact List.mem_append_left _ hx
    · exact List.mem_append_right _ (Expr.mem_identsList.mpr ⟨c, hc, hx⟩)
  | union es => exact Expr.mem_identsList.mpr ⟨c, hc, hx⟩
  | composite t es =>
    rcases List.mem_append.mp hc with hc | hc
    · exact List.mem_append_left _ (Expr.mem_identsOption.mpr ⟨c, hc, hx⟩)
    · exact List.mem_append_right _ (Expr.mem_identsList.mpr ⟨c, hc, hx⟩)
  | sliceExpr e bs =>
    rcases List.mem_cons.mp hc with rfl | hc
    · exact List.mem_append_left _ hx
    · exact List.mem_append_right _ (Expr.mem_identsOptions.mpr ⟨c, hc, hx⟩)
  | ident | lit | selector | unsupported => exact absurd hc List.not_mem_nil
  | _ =>
    simp only [Expr.parts, List.mem_cons, List.not_mem_nil, or_false] at hc
    rcases hc with rfl | rfl <;> simp [Expr.idents, hx]

/-- The identifiers of what is compared in a tree are identifiers of the tree. -/
theorem Expr.mem_idents_of_compares {e t : Expr} {x : Ident} (h : e.Compares t)
    (hx : x ∈ t.idents) : x ∈ e.idents := by
  induction h with
  | root e => exact hx
  | part hc _ ih => exact Expr.mem_idents_of_part hc (ih hx)

/-! ## Open members -/

/-- The names of members are open wherever the tree is compared. -/
def Expr.MembersOpen (e : Expr) : Prop :=
  ∀ t, e.Compares t → t.form ≠ .ident → ∀ x, some x ∈ t.labels → x.isBound = false

/-- Members are open at the root and in the parts. -/
theorem Expr.membersOpen_iff {e : Expr} :
    e.MembersOpen ↔ (e.form ≠ .ident → ∀ x, some x ∈ e.labels → x.isBound = false) ∧
      ∀ c ∈ e.parts, c.MembersOpen := by
  constructor
  · intro h
    exact ⟨h e (.root e), fun c hc t ht => h t (.part hc ht)⟩
  · rintro ⟨hroot, hparts⟩ t ht
    rcases Expr.compares_iff.mp ht with rfl | ⟨c, hc, hct⟩
    · exact hroot
    · exact hparts c hc t hct

theorem Expr.membersOpen_of_idents {e : Expr} (h : ∀ x ∈ e.idents, x.isBound = false) :
    e.MembersOpen := by
  intro t ht _ x hx
  exact h x (Expr.mem_idents_of_compares ht (Expr.mem_idents_of_label hx))

/-- Replacing references leaves members open. -/
theorem Expr.MembersOpen.mapRefs (f : Ident → Ident) {e : Expr} (h : e.MembersOpen) :
    (e.mapRefs f).MembersOpen := by
  induction e using Expr.partInduction with
  | step e ih =>
    obtain ⟨hroot, hparts⟩ := Expr.membersOpen_iff.mp h
    refine Expr.membersOpen_iff.mpr ⟨?_, ?_⟩
    · intro hform
      rw [Expr.form_mapRefs] at hform
      rw [Expr.labels_mapRefs f hform]
      exact hroot hform
    · rw [Expr.parts_mapRefs, List.forall_mem_map]
      exact fun c hc => ih c hc (hparts c hc)

/-! ## The visible part -/

/-- The slots that are left of a field are the visible ones. -/
theorem Field.slots_exportedOnly (f : Field) :
    Fields.slots f.exportedOnly =
      (f.slots.filter Slot.isVisible).map fun s => { s with type := s.type.exportedOnly } := by
  obtain ⟨xs, t, tag⟩ := f
  cases xs with
  | nil =>
    cases h : t.hasExportedBase <;>
      simp [Field.exportedOnly, Field.slots, slotNames, Slot.isVisible, h]
  | cons x xs =>
    -- All slots of a group have a name, and it is the name that decides.
    have hslots : ∀ ys : List Ident,
        ((ys.map fun y => (⟨some y, t, tag⟩ : Slot)).filter Slot.isVisible) =
          (ys.filter Ident.isExported).map fun y => ⟨some y, t, tag⟩ := by
      intro ys
      rw [List.filter_map]
      rfl
    have hgroup : (⟨x :: xs, t, tag⟩ : Field).slots =
        (x :: xs).map fun y => (⟨some y, t, tag⟩ : Slot) := by
      simp [Field.slots, slotNames]
    rw [hgroup, hslots, Field.exportedOnly]
    cases (x :: xs).filter Ident.isExported <;> simp [Field.slots, slotNames]

/-- The slots that are left of a field list are the visible ones. -/
theorem Fields.slots_exportedOnly (fs : Fields) :
    Fields.slots (Fields.exportedOnly fs) =
      ((Fields.slots fs).filter Slot.isVisible).map
        fun s => { s with type := s.type.exportedOnly } := by
  induction fs with
  | nil => rfl
  | cons f fs ih =>
    rw [Fields.exportedOnly, Fields.slots_append, Field.slots_exportedOnly, ih, Fields.slots_cons,
      List.filter_append, List.map_append]

/-- The visible part of a type has open members if the type has. -/
theorem Expr.MembersOpen.exportedOnly {e : Expr} (h : e.MembersOpen) :
    e.exportedOnly.MembersOpen := by
  induction e using Expr.partInduction with
  | step e ih =>
    obtain ⟨hroot, hparts⟩ := Expr.membersOpen_iff.mp h
    cases e with
    | struct fs =>
      rw [Expr.exportedOnly]
      refine Expr.membersOpen_iff.mpr ⟨?_, ?_⟩
      · intro _ x hx
        refine hroot (by simp [Expr.form]) x ?_
        simp only [Expr.labels, Fields.labels, Fields.slots_exportedOnly, List.map_map,
          List.mem_map, List.mem_filter] at hx ⊢
        obtain ⟨s, ⟨hs, -⟩, hname⟩ := hx
        exact ⟨s, hs, hname⟩
      · intro c hc
        simp only [Expr.parts, Fields.slotTypes, Fields.slots_exportedOnly, List.map_map,
          List.mem_map, List.mem_filter] at hc
        obtain ⟨s, ⟨hs, -⟩, rfl⟩ := hc
        have htype : s.type ∈ (Expr.struct fs).parts := List.mem_map_of_mem hs
        exact ih s.type htype (hparts s.type htype)
    | pointer e | slice e | paren e | chan d e =>
      refine Expr.membersOpen_iff.mpr ⟨fun _ x hx => absurd hx List.not_mem_nil, ?_⟩
      simp only [Expr.exportedOnly, Expr.parts, List.forall_mem_singleton] at ih hparts ⊢
      exact ih hparts
    | array n e =>
      refine Expr.membersOpen_iff.mpr ⟨fun _ x hx => absurd hx List.not_mem_nil, ?_⟩
      simp only [Expr.exportedOnly, Expr.parts, List.forall_mem_cons, List.not_mem_nil,
        false_implies, implies_true, and_true] at ih hparts ⊢
      exact ⟨hparts.1, ih.2 hparts.2⟩
    | map k v =>
      refine Expr.membersOpen_iff.mpr ⟨fun _ x hx => absurd hx List.not_mem_nil, ?_⟩
      simp only [Expr.exportedOnly, Expr.parts, List.forall_mem_cons, List.not_mem_nil,
        false_implies, implies_true, and_true] at ih hparts ⊢
      exact ⟨ih.1 hparts.1, ih.2 hparts.2⟩
    | _ => exact h

/-! ## Following names -/

/-- A step leads to a type of the package. -/
theorem Package.mem_types_of_next? {p : Package} {visited : List String} {e : Expr}
    {name : String} {t : TypeSpec} (h : p.next? visited e = some (name, t)) : t ∈ p.types := by
  unfold Package.next? at h
  split at h
  · cases h
  · split at h
    · cases h
    · split at h
      next target hfound =>
        simp only [Option.some.injEq, Prod.mk.injEq] at h
        exact h.2 ▸ List.mem_of_find?_eq_some hfound
      next => cases h

/-- What holds at the start and of every type of the package holds where following ends. -/
theorem Package.followFrom_of_forall {motive : Fields → Expr → Prop} {p : Package}
    (htypes : ∀ t ∈ p.types, motive t.typeParams t.type) (hops : Nat) (visited : List String)
    (r : Resolved) (h : motive r.typeParams r.type) :
    motive (p.followFrom hops visited r).typeParams (p.followFrom hops visited r).type := by
  induction hops generalizing visited r with
  | zero => exact h
  | succ hops ih =>
    unfold Package.followFrom
    split
    · exact h
    · next name target hnext => exact ih _ _ (htypes target (Package.mem_types_of_next? hnext))

/-- What holds of every type of the package holds of what any of them stands for. -/
theorem Package.follow_of_forall {motive : Fields → Expr → Prop} {p : Package}
    (htypes : ∀ t ∈ p.types, motive t.typeParams t.type) {t : TypeSpec} (ht : t ∈ p.types) :
    motive (p.follow t).typeParams (p.follow t).type :=
  Package.followFrom_of_forall htypes _ _ _ (htypes t ht)

/-! ## Compared members -/

/-- The types of a resolved package that bound nothing have open members. -/
theorem Package.Unbound.type_membersOpen {p : Package} (h : p.Unbound) {t : TypeSpec}
    (ht : t ∈ p.resolve.types) :
    (∀ e ∈ Fields.slotTypes t.typeParams, e.MembersOpen) ∧ t.type.MembersOpen := by
  rw [Package.types_resolve] at ht
  obtain ⟨u, hu, rfl⟩ := List.mem_map.mp ht
  have hfree := h (.type u) (Decl.isKind_type.mem_filterMap.mp hu)
  simp only [Decl.idents, List.forall_mem_cons, List.forall_mem_append] at hfree
  obtain ⟨-, hparams, htype⟩ := hfree
  constructor
  · rw [TypeSpec.resolve, Fields.slotTypes_mapRefs, List.forall_mem_map]
    intro e he
    exact (Expr.membersOpen_of_idents fun x hx =>
      hparams x (Fields.mem_idents_of_slotType he hx)).mapRefs _
  · exact (Expr.membersOpen_of_idents htype).mapRefs _

/-- In a resolved package that bound nothing before, the names of compared members are open. -/
theorem Package.Unbound.membersOpen {p : Package} (h : p.Unbound) {d : Decl}
    (hd : d ∈ p.resolve.surface) : ∀ e ∈ d.comparedTrees p.resolve, e.MembersOpen := by
  have hmem := (List.mem_filter.mp hd).1
  rw [Package.decls_resolve] at hmem
  obtain ⟨d₀, hd₀, rfl⟩ := List.mem_map.mp hmem
  have hfree := h d₀ hd₀
  cases d₀ with
  | value v =>
    simp only [Decl.idents, List.forall_mem_append] at hfree
    obtain ⟨⟨-, htype⟩, hvalues⟩ := hfree
    simp only [Decl.resolve, Decl.comparedTrees, ValueSpec.comparedTrees, ValueSpec.resolve,
      Option.toList_map, List.forall_mem_append, List.forall_mem_map]
    constructor
    · intro e he
      exact (Expr.membersOpen_of_idents fun x hx =>
        htype x (Expr.mem_identsOption.mpr ⟨e, he, hx⟩)).mapRefs _
    · intro e he
      exact (Expr.membersOpen_of_idents fun x hx =>
        hvalues x (Expr.mem_identsList.mpr ⟨e, he, hx⟩)).mapRefs _
  | func f =>
    simp only [Decl.idents, List.forall_mem_cons, List.forall_mem_append] at hfree
    obtain ⟨-, hrecv, hsig⟩ := hfree
    have hgetD : (f.resolve p.scope).recv.getD [] =
        Fields.mapRefs (p.scope.bind f.hidden) (f.recv.getD []) := by
      rw [FuncDecl.resolve]
      cases f.recv <;> rfl
    have hsig' : (f.resolve p.scope).sig = f.sig.mapRefs (p.scope.bind f.hidden) := rfl
    simp only [Decl.resolve, Decl.comparedTrees, FuncDecl.comparedTrees, hgetD, hsig',
      Fields.slotTypes_mapRefs, Signature.slotTypes_mapRefs, List.forall_mem_append,
      List.forall_mem_map]
    constructor
    · intro e he
      exact (Expr.membersOpen_of_idents fun x hx =>
        hrecv x (Fields.mem_idents_of_slotType he hx)).mapRefs _
    · intro e he
      exact (Expr.membersOpen_of_idents fun x hx =>
        hsig x (Signature.mem_idents_of_slotType he hx)).mapRefs _
  | type t =>
    have ht : t.resolve p.scope ∈ p.resolve.types := by
      rw [Package.types_resolve]
      exact List.mem_map_of_mem (Decl.isKind_type.mem_filterMap.mpr hd₀)
    -- Following names ends at a type of the package, whose members are open.
    obtain ⟨hparams, htype⟩ := Package.follow_of_forall
      (motive := fun ts e => (∀ t ∈ Fields.slotTypes ts, t.MembersOpen) ∧ e.MembersOpen)
      (fun _ hu => h.type_membersOpen hu) ht
    simp only [Decl.resolve, Decl.comparedTrees, TypeSpec.comparedTrees, List.forall_mem_append,
      List.forall_mem_singleton]
    exact ⟨hparams, htype.exportedOnly⟩

end GoSurface
