/-
# What resolving does to a package

Resolving visits every declaration of a package once and binds names by the scope of the whole
package.  It changes references only: forms, the names of members and the shape of trees stay.

* `Package.decls_resolve`: the declarations of a resolved package;
* `Expr.form_mapRefs`, `Expr.labels_mapRefs`, `Expr.parts_mapRefs`: a tree with its references
  replaced, by form, labels and parts;
* `TypeSpec.name_same_of_resolve`: types of one name have the same name once resolved;
* `Expr.mapRefs_congr`: replacing depends on what is put for each reference.
-/
import GoSurface.Scope
import GoSurface.Proofs.Equality

namespace GoSurface

/-! ## Declarations -/

theorem Package.decls_resolve (p : Package) :
    p.resolve.decls = p.decls.map (Decl.resolve p.scope) := by
  rw [Package.decls, Package.decls, List.map_flatMap, Package.resolve, List.flatMap_map]

/-- Choosing after replacing is replacing after choosing. -/
theorem filterMap_map_comm {α β : Type} {choose : α → Option β} {f : α → α} {g : β → β}
    (h : ∀ a, choose (f a) = (choose a).map g) (xs : List α) :
    (xs.map f).filterMap choose = (xs.filterMap choose).map g := by
  rw [List.filterMap_map, List.map_filterMap]
  congr 1
  funext a
  exact h a

theorem Package.types_resolve (p : Package) :
    p.resolve.types = p.types.map (TypeSpec.resolve p.scope) := by
  rw [Package.types, Package.types, Package.decls_resolve]
  exact filterMap_map_comm (fun d => by cases d <;> rfl) p.decls

/-- Every type of a resolved package is one of the package's, resolved. -/
theorem Package.exists_type_of_mem_resolve {p : Package} {t : TypeSpec}
    (h : Decl.type t ∈ p.resolve.decls) :
    ∃ u, Decl.type u ∈ p.decls ∧ t = u.resolve p.scope := by
  rw [Package.decls_resolve] at h
  obtain ⟨d, hd, ht⟩ := List.mem_map.mp h
  cases d with
  | type u => exact ⟨u, hd, (Decl.type.inj ht).symm⟩
  | _ => cases ht

/-- Resolved types of one name have the same name: both stand for a type of that name. -/
theorem TypeSpec.name_same_of_resolve {p q : Package} {t u : TypeSpec}
    (ht : Decl.type t ∈ p.resolve.decls) (hu : Decl.type u ∈ q.resolve.decls)
    (hname : t.name.name = u.name.name) : t.name.same u.name = true := by
  obtain ⟨t, -, rfl⟩ := Package.exists_type_of_mem_resolve ht
  obtain ⟨u, -, rfl⟩ := Package.exists_type_of_mem_resolve hu
  have hname : t.name.name = u.name.name := hname
  simp [Ident.same, Binding.same, TypeSpec.resolve, hname]

/-! ## Trees -/

/-- The slots of a field list with its references replaced. -/
theorem Fields.slots_mapRefs (f : Ident → Ident) (fs : Fields) :
    Fields.slots (Fields.mapRefs f fs) =
      (Fields.slots fs).map fun s => { s with type := s.type.mapRefs f } := by
  rw [Fields.mapRefs_eq_map]
  induction fs with
  | nil => rfl
  | cons x fs ih =>
    cases x
    simp only [List.map_cons, Fields.slots_cons, List.map_append, ih]
    simp [Field.slots, Field.mapRefs]

@[simp] theorem Fields.tags_mapRefs (f : Ident → Ident) (fs : Fields) :
    Fields.tags (Fields.mapRefs f fs) = Fields.tags fs := by
  rw [Fields.tags, Fields.slots_mapRefs, List.map_map]
  rfl

@[simp] theorem Fields.labels_mapRefs (f : Ident → Ident) (fs : Fields) :
    Fields.labels (Fields.mapRefs f fs) = Fields.labels fs := by
  rw [Fields.labels, Fields.slots_mapRefs, List.map_map]
  rfl

@[simp] theorem Fields.slotTypes_mapRefs (f : Ident → Ident) (fs : Fields) :
    Fields.slotTypes (Fields.mapRefs f fs) = (Fields.slotTypes fs).map (Expr.mapRefs f) := by
  rw [Fields.slotTypes, Fields.slots_mapRefs, List.map_map, Fields.slotTypes, List.map_map]
  rfl

@[simp] theorem Signature.tags_mapRefs (f : Ident → Ident) (s : Signature) :
    (s.mapRefs f).tags = s.tags := by
  cases s
  simp [Signature.tags, Signature.mapRefs]

@[simp] theorem Signature.slotTypes_mapRefs (f : Ident → Ident) (s : Signature) :
    (s.mapRefs f).slotTypes = s.slotTypes.map (Expr.mapRefs f) := by
  cases s
  simp [Signature.slotTypes, Signature.mapRefs]

theorem Expr.mapRefsOption_eq_map (f : Ident → Ident) (e : Option Expr) :
    Expr.mapRefsOption f e = e.map (Expr.mapRefs f) := by
  cases e <;> rfl

/-- Replacing references in a row with gaps goes entry by entry. -/
theorem Expr.mapRefsOptions_eq_map (f : Ident → Ident) (es : List (Option Expr)) :
    Expr.mapRefsOptions f es = es.map (Option.map (Expr.mapRefs f)) := by
  induction es with
  | nil => rfl
  | cons e es ih => simp [Expr.mapRefsOptions, Expr.mapRefsOption_eq_map, ih]

@[simp] theorem Expr.form_mapRefs (f : Ident → Ident) (e : Expr) :
    (e.mapRefs f).form = e.form := by
  cases e <;>
    simp [Expr.mapRefs, Expr.form, Expr.mapRefsOption_eq_map, Expr.mapRefsOptions_eq_map]

/-- Replacing references keeps the names of members. -/
theorem Expr.labels_mapRefs (f : Ident → Ident) {e : Expr} (h : e.form ≠ .ident) :
    (e.mapRefs f).labels = e.labels := by
  cases e with
  | ident x => exact absurd rfl h
  | _ => simp [Expr.mapRefs, Expr.labels]

/-- Replacing references in a tree replaces them in its parts. -/
@[simp] theorem Expr.parts_mapRefs (f : Ident → Ident) (e : Expr) :
    (e.mapRefs f).parts = e.parts.map (Expr.mapRefs f) := by
  cases e with
  | composite t es =>
    cases t <;> simp [Expr.mapRefs, Expr.parts, Expr.mapRefsOption, Expr.mapRefsList_eq_map]
  | sliceExpr e bs =>
    simp [Expr.mapRefs, Expr.parts, Expr.mapRefsOptions_eq_map, List.flatMap_map,
      List.map_flatMap, Option.toList_map]
  | _ => simp [Expr.mapRefs, Expr.parts, Expr.mapRefsList_eq_map]

/-! ## What replacing depends on -/

/-- The references of a field list are those of its types. -/
theorem Fields.mem_refs {fs : Fields} {x : Ident} :
    x ∈ Fields.refs fs ↔ ∃ t ∈ Fields.slotTypes fs, x ∈ t.refs := by
  rw [Fields.refs_eq_flatMap, List.mem_flatMap]
  constructor
  · rintro ⟨f, hf, hx⟩
    exact ⟨f.type, Fields.mem_slotTypes.mpr ⟨f, hf, rfl⟩, hx⟩
  · rintro ⟨t, ht, hx⟩
    obtain ⟨f, hf, rfl⟩ := Fields.mem_slotTypes.mp ht
    exact ⟨f, hf, hx⟩

/-- The references of a signature are those of its types. -/
theorem Signature.mem_refs {s : Signature} {x : Ident} :
    x ∈ s.refs ↔ ∃ t ∈ s.slotTypes, x ∈ t.refs := by
  cases s with
  | mk ts ps rs =>
    simp only [Signature.refs, Signature.slotTypes, List.mem_append, Fields.mem_refs, or_and_right,
      exists_or]

/-- A row with gaps refers to what the trees in it refer to. -/
theorem Expr.refsOptions_eq_flatMap (es : List (Option Expr)) :
    Expr.refsOptions es = es.flatMap Expr.refsOption := by
  induction es with
  | nil => rfl
  | cons e es ih => simp [Expr.refsOptions, ih]

/-- The references of trees directly below a root are references of the whole. -/
theorem Expr.mem_refs_of_child {e c : Expr} {x : Ident} (hc : c ∈ e.children)
    (hx : x ∈ c.refs) : x ∈ e.refs := by
  cases e with
  | func s | funcLit s => exact Signature.mem_refs.mpr ⟨c, hc, hx⟩
  | struct fs | interface fs => exact Fields.mem_refs.mpr ⟨c, hc, hx⟩
  | index e es | call e es =>
    rw [Expr.refs, Expr.refsList_eq_flatMap, List.mem_append, List.mem_flatMap]
    rcases List.mem_cons.mp hc with rfl | hc
    · exact Or.inl hx
    · exact Or.inr ⟨c, hc, hx⟩
  | union es =>
    rw [Expr.refs, Expr.refsList_eq_flatMap, List.mem_flatMap]
    exact ⟨c, hc, hx⟩
  | composite t es =>
    rw [Expr.refs, Expr.refsList_eq_flatMap, List.mem_append, List.mem_flatMap]
    rcases List.mem_append.mp hc with hc | hc
    · cases t with
      | none => cases hc
      | some t =>
        obtain rfl := List.mem_singleton.mp hc
        exact Or.inl hx
    · exact Or.inr ⟨c, hc, hx⟩
  | sliceExpr e bs =>
    rw [Expr.refs, Expr.refsOptions_eq_flatMap, List.mem_append, List.mem_flatMap]
    rcases List.mem_cons.mp hc with rfl | hc
    · exact Or.inl hx
    · obtain ⟨b, hb, hcb⟩ := List.mem_flatMap.mp hc
      obtain rfl := Option.mem_toList.mp hcb
      exact Or.inr ⟨some c, hb, hx⟩
  | ident | lit | unsupported => cases hc
  | array | map | binary | keyValue | typeAssert =>
    simp only [Expr.children, Expr.parts, List.mem_cons, List.not_mem_nil, or_false] at hc
    rw [Expr.refs, List.mem_append]
    rcases hc with rfl | rfl
    · exact Or.inl hx
    · exact Or.inr hx
  | _ =>
    simp only [Expr.children, Expr.parts, List.mem_singleton] at hc
    exact hc ▸ hx

/-- Replacing in a field list depends on what it gives for the types. -/
theorem Fields.mapRefs_congr {f g : Ident → Ident} {fs : Fields}
    (h : ∀ t ∈ Fields.slotTypes fs, t.mapRefs f = t.mapRefs g) :
    Fields.mapRefs f fs = Fields.mapRefs g fs := by
  rw [Fields.mapRefs_eq_map, Fields.mapRefs_eq_map]
  apply List.map_congr_left
  rintro ⟨xs, t, tag⟩ hfield
  have htype := h t (Fields.mem_slotTypes.mpr ⟨_, hfield, rfl⟩)
  simp only [Field.mapRefs, htype]

/-- Replacing in a signature depends on what it gives for the types. -/
theorem Signature.mapRefs_congr {f g : Ident → Ident} {s : Signature}
    (h : ∀ t ∈ s.slotTypes, t.mapRefs f = t.mapRefs g) : s.mapRefs f = s.mapRefs g := by
  cases s with
  | mk ts ps rs =>
    simp only [Signature.slotTypes, List.forall_mem_append] at h
    obtain ⟨⟨hts, hps⟩, hrs⟩ := h
    simp only [Signature.mapRefs, Fields.mapRefs_congr hts, Fields.mapRefs_congr hps,
      Fields.mapRefs_congr hrs]

/-- Replacing depends on what is put for each reference of a tree. -/
theorem Expr.mapRefs_congr {f g : Ident → Ident} {e : Expr} (h : ∀ x ∈ e.refs, f x = g x) :
    e.mapRefs f = e.mapRefs g := by
  induction e using Expr.childInduction with
  | step e ih =>
    have hchild : ∀ c ∈ e.children, c.mapRefs f = c.mapRefs g :=
      fun c hc => ih c hc fun x hx => h x (Expr.mem_refs_of_child hc hx)
    have hrow : ∀ es : List Expr, (∀ c ∈ es, c.mapRefs f = c.mapRefs g) →
        Expr.mapRefsList f es = Expr.mapRefsList g es := by
      intro es hes
      rw [Expr.mapRefsList_eq_map, Expr.mapRefsList_eq_map]
      exact List.map_congr_left hes
    cases e with
    | func s | funcLit s => simp only [Expr.mapRefs, Signature.mapRefs_congr hchild]
    | struct fs | interface fs => simp only [Expr.mapRefs, Fields.mapRefs_congr hchild]
    | index e es | call e es =>
      obtain ⟨he, hes⟩ := List.forall_mem_cons.mp hchild
      simp only [Expr.mapRefs, he, hrow es hes]
    | union es => simp only [Expr.mapRefs, hrow es hchild]
    | composite t es =>
      obtain ⟨ht, hes⟩ := List.forall_mem_append.mp hchild
      have htype : Expr.mapRefsOption f t = Expr.mapRefsOption g t := by
        cases t with
        | none => rfl
        | some t => exact congrArg some (ht t (List.mem_singleton_self t))
      simp only [Expr.mapRefs, htype, hrow es hes]
    | sliceExpr e bs =>
      obtain ⟨he, hbs⟩ := List.forall_mem_cons.mp hchild
      have hbounds : Expr.mapRefsOptions f bs = Expr.mapRefsOptions g bs := by
        rw [Expr.mapRefsOptions_eq_map, Expr.mapRefsOptions_eq_map]
        apply List.map_congr_left
        rintro (_ | b) hb
        · rfl
        · exact congrArg some (hbs b (List.mem_flatMap.mpr ⟨some b, hb, List.mem_singleton_self b⟩))
      simp only [Expr.mapRefs, he, hbounds]
    | ident x => exact congrArg Expr.ident (h x (List.mem_singleton_self x))
    | lit | unsupported => rfl
    | array | map | binary | keyValue | typeAssert =>
      simp only [Expr.children, Expr.parts, List.forall_mem_cons] at hchild
      simp only [Expr.mapRefs, hchild.1, hchild.2.1]
    | _ =>
      simp only [Expr.children, Expr.parts, List.forall_mem_singleton] at hchild
      simp only [Expr.mapRefs, hchild]

theorem Fields.mapRefs_eq_of_refs {f g : Ident → Ident} {fs : Fields}
    (h : ∀ x ∈ Fields.refs fs, f x = g x) : Fields.mapRefs f fs = Fields.mapRefs g fs :=
  Fields.mapRefs_congr fun t ht =>
    Expr.mapRefs_congr fun x hx => h x (Fields.mem_refs.mpr ⟨t, ht, hx⟩)

theorem Signature.mapRefs_eq_of_refs {f g : Ident → Ident} {s : Signature}
    (h : ∀ x ∈ s.refs, f x = g x) : s.mapRefs f = s.mapRefs g :=
  Signature.mapRefs_congr fun t ht =>
    Expr.mapRefs_congr fun x hx => h x (Signature.mem_refs.mpr ⟨t, ht, hx⟩)

end GoSurface
