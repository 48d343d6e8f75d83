/-
# Plain spelling

A field list can be spelled in many ways: names that share a type may be grouped, and the names of
parameters, results and receivers are free.  The plain spelling has one field per slot and names
only where they count: in structs, interfaces and type-parameter lists.  Two spellings have the same
plain one exactly when they agree slot by slot.

* `Expr.plain`, `Fields.plain`: the plain spelling, at every depth;
* `Fields.plain_eq_plain_iff`: what it forgets;
* `Expr.same_plain`: equality does not see the spelling;
* `Expr.mapRefs_plain`, `Expr.exportedOnly_plain`: it goes along with resolving and filtering.
-/
import GoSurface.Proofs.Members

namespace GoSurface

mutual

/-- The tree in plain spelling. -/
def Expr.plain : Expr → Expr
  | .ident x => .ident x
  | .lit l => .lit l
  | .ellipsis e => .ellipsis e.plain
  | .pointer e => .pointer e.plain
  | .slice e => .slice e.plain
  | .paren e => .paren e.plain
  | .tilde e => .tilde e.plain
  | .array n e => .array n.plain e.plain
  | .map k v => .map k.plain v.plain
  | .chan d e => .chan d e.plain
  | .func s => .func s.plain
  | .struct fs => .struct (Fields.plain true fs)
  | .interface fs => .interface (Fields.plain true fs)
  | .selector e x => .selector e.plain x
  | .index e es => .index e.plain (Expr.plainList es)
  | .union es => .union (Expr.plainList es)
  | .call e es => .call e.plain (Expr.plainList es)
  | .binary op l r => .binary op l.plain r.plain
  | .unary op e => .unary op e.plain
  | .keyValue k v => .keyValue k.plain v.plain
  | .composite t es => .composite (Expr.plainOption t) (Expr.plainList es)
  | .funcLit s => .funcLit s.plain
  | .sliceExpr e bs => .sliceExpr e.plain (Expr.plainOptions bs)
  | .typeAssert e t => .typeAssert e.plain t.plain
  | .unsupported k => .unsupported k

def Expr.plainList : List Expr → List Expr
  | [] => []
  | e :: es => e.plain :: Expr.plainList es

def Expr.plainOption : Option Expr → Option Expr
  | none => none
  | some e => some e.plain

def Expr.plainOptions : List (Option Expr) → List (Option Expr)
  | [] => []
  | e :: es => Expr.plainOption e :: Expr.plainOptions es

def Field.plain (named : Bool) : Field → List Field
  | ⟨xs, t, tag⟩ =>
    (slotNames xs).map fun x => ⟨if named then x.toList else [], t.plain, tag⟩

def Fields.plain (named : Bool) : List Field → List Field
  | [] => []
  | f :: fs => f.plain named ++ Fields.plain named fs

/-- A signature in plain spelling: of its names, those of type parameters count. -/
def Signature.plain : Signature → Signature
  | ⟨ts, ps, rs⟩ => ⟨Fields.plain true ts, Fields.plain false ps, Fields.plain false rs⟩

end

/-! ## Slots -/

def Slot.plain (named : Bool) (s : Slot) : Slot :=
  ⟨if named then s.name else none, s.type.plain, s.tag⟩

/-- A field with a single slot. -/
def Slot.field (s : Slot) : Field :=
  ⟨s.name.toList, s.type, s.tag⟩

@[simp] theorem Slot.slots_field (s : Slot) : s.field.slots = [s] := by
  obtain ⟨_ | x, t, tag⟩ := s <;> rfl

/-- The slots of fields made of slots. -/
@[simp] theorem Fields.slots_map_field (ss : List Slot) :
    Fields.slots (ss.map Slot.field) = ss := by
  induction ss with
  | nil => rfl
  | cons s ss ih => rw [List.map_cons, Fields.slots_cons, Slot.slots_field, ih, List.singleton_append]

/-- A plain field list has a field for each slot. -/
theorem Fields.plain_eq (named : Bool) (fs : Fields) :
    Fields.plain named fs = ((Fields.slots fs).map (Slot.plain named)).map Slot.field := by
  induction fs with
  | nil => rfl
  | cons f fs ih =>
    obtain ⟨xs, t, tag⟩ := f
    rw [Fields.plain, ih, Fields.slots_cons, List.map_append, List.map_append, Field.plain,
      Field.slots, List.map_map, List.map_map]
    congr 1
    rw [List.map_map]
    apply List.map_congr_left
    intro x _
    cases named <;> rfl

@[simp] theorem Fields.slots_plain (named : Bool) (fs : Fields) :
    Fields.slots (Fields.plain named fs) = (Fields.slots fs).map (Slot.plain named) := by
  rw [Fields.plain_eq, Fields.slots_map_field]

/-- Field lists have the same plain spelling when they agree slot by slot, apart from names that do
not count and from the spelling of types. -/
theorem Fields.plain_eq_plain_iff {named : Bool} {fs gs : Fields} :
    Fields.plain named fs = Fields.plain named gs ↔
      (Fields.slots fs).map (Slot.plain named) = (Fields.slots gs).map (Slot.plain named) := by
  constructor
  · intro h
    rw [← Fields.slots_plain, ← Fields.slots_plain, h]
  · intro h
    rw [Fields.plain_eq, Fields.plain_eq, h]

@[simp] theorem Fields.tags_plain (named : Bool) (fs : Fields) :
    Fields.tags (Fields.plain named fs) = Fields.tags fs := by
  rw [Fields.tags, Fields.slots_plain, List.map_map]
  rfl

@[simp] theorem Fields.labels_plain (fs : Fields) :
    Fields.labels (Fields.plain true fs) = Fields.labels fs := by
  rw [Fields.labels, Fields.slots_plain, List.map_map]
  rfl

@[simp] theorem Fields.slotTypes_plain (named : Bool) (fs : Fields) :
    Fields.slotTypes (Fields.plain named fs) = (Fields.slotTypes fs).map Expr.plain := by
  rw [Fields.slotTypes, Fields.slots_plain, Fields.slotTypes, List.map_map, List.map_map]
  rfl

@[simp] theorem Signature.tags_plain (s : Signature) : s.plain.tags = s.tags := by
  cases s
  simp [Signature.tags, Signature.plain]

@[simp] theorem Signature.slotTypes_plain (s : Signature) :
    s.plain.slotTypes = s.slotTypes.map Expr.plain := by
  cases s
  simp [Signature.slotTypes, Signature.plain]

/-! ## Equality -/

theorem Expr.plainList_eq_map (es : List Expr) : Expr.plainList es = es.map Expr.plain := by
  induction es with
  | nil => rfl
  | cons e es ih => simp [Expr.plainList, ih]

theorem Expr.plainOption_eq_map (e : Option Expr) : Expr.plainOption e = e.map Expr.plain := by
  cases e <;> rfl

/-- A plain row with gaps is plain entry by entry. -/
theorem Expr.plainOptions_eq_map (es : List (Option Expr)) :
    Expr.plainOptions es = es.map (Option.map Expr.plain) := by
  induction es with
  | nil => rfl
  | cons e es ih => simp [Expr.plainOptions, Expr.plainOption_eq_map, ih]

@[simp] theorem Expr.form_plain (e : Expr) : e.plain.form = e.form := by
  cases e <;> simp [Expr.plain, Expr.form, Expr.plainOption_eq_map, Expr.plainOptions_eq_map]

@[simp] theorem Expr.labels_plain (e : Expr) : e.plain.labels = e.labels := by
  cases e <;> simp [Expr.plain, Expr.labels]

/-- Plain spelling goes part by part. -/
@[simp] theorem Expr.parts_plain (e : Expr) : e.plain.parts = e.parts.map Expr.plain := by
  cases e with
  | composite t es =>
    cases t <;> simp [Expr.plain, Expr.parts, Expr.plainOption, Expr.plainList_eq_map]
  | sliceExpr e bs =>
    simp [Expr.plain, Expr.parts, Expr.plainOptions_eq_map, List.flatMap_map, List.map_flatMap,
      Option.toList_map]
  | _ => simp [Expr.plain, Expr.parts, Expr.plainList_eq_map]

/-- Rows are related alike if their entries are. -/
theorem forall₂_map_congr {α : Type} {R : α → α → Prop} {f : α → α} {as bs : List α}
    (h : ∀ a ∈ as, ∀ b ∈ bs, R (f a) (f b) ↔ R a b) :
    List.Forall₂ R (as.map f) (bs.map f) ↔ List.Forall₂ R as bs := by
  rw [List.forall₂_map_left_iff, List.forall₂_map_right_iff, List.forall₂_iff_zip,
    List.forall₂_iff_zip]
  refine and_congr_right fun _ => ?_
  constructor
  · intro hall a b hab
    obtain ⟨ha, hb⟩ := List.of_mem_zip hab
    exact (h a ha b hb).mp (hall hab)
  · intro hall a b hab
    obtain ⟨ha, hb⟩ := List.of_mem_zip hab
    exact (h a ha b hb).mpr (hall hab)

/-- **Equality does not see the spelling.** -/
@[simp] theorem Expr.same_plain (a b : Expr) : a.plain.same b.plain = a.same b := by
  induction a using Expr.partInduction generalizing b with
  | step a ih =>
    rw [Bool.eq_iff_iff, Expr.same_iff, Expr.same_iff]
    simp only [Expr.form_plain, Expr.labels_plain, Expr.parts_plain]
    rw [forall₂_map_congr fun x hx y _ => by rw [ih x hx y]]

theorem Slot.same_plain (a b : Slot) :
    (a.plain true).same .significant (b.plain true) = a.same .significant b := by
  simp [Slot.same, Slot.plain]

/-- Field lists whose names do not count are compared alike, whether they keep them or not. -/
theorem Fields.same_ignored_plain (named : Bool) (fs gs : Fields) :
    Fields.same .ignored (Fields.plain named fs) (Fields.plain named gs) =
      Fields.same .ignored fs gs := by
  rw [Bool.eq_iff_iff, Fields.same_ignored_iff, Fields.same_ignored_iff]
  simp only [Fields.tags_plain, Fields.slotTypes_plain]
  rw [forall₂_map_congr fun x _ y _ => by rw [Expr.same_plain]]

@[simp] theorem Signature.same_plain (s t : Signature) : s.plain.same t.plain = s.same t := by
  rw [Bool.eq_iff_iff, Signature.same_iff, Signature.same_iff]
  simp only [Signature.tags_plain, Signature.slotTypes_plain]
  rw [forall₂_map_congr fun x _ y _ => by rw [Expr.same_plain]]

/-- Structs are seen to grow alike. -/
theorem Fields.extendedBy_plain (fs gs : Fields) :
    Fields.extendedBy (Fields.plain true fs) (Fields.plain true gs) =
      Fields.extendedBy fs gs := by
  rw [Bool.eq_iff_iff, Fields.extendedBy, Fields.extendedBy]
  simp only [Bool.and_eq_true, decide_eq_true_eq, Fields.sameSlots_iff, Fields.slots_plain,
    List.length_map, ← List.map_take]
  rw [forall₂_map_congr fun x _ y _ => by rw [Slot.same_plain]]

/-- The visible parts of types differ alike. -/
theorem visibleDifference?_plain (a b : Expr) :
    visibleDifference? a.plain b.plain = visibleDifference? a b := by
  by_cases h : ∃ fs gs, a = .struct fs ∧ b = .struct gs
  · obtain ⟨fs, gs, rfl, rfl⟩ := h
    have hsame : Fields.same .significant (Fields.plain true fs) (Fields.plain true gs) =
        Fields.same .significant fs gs := Expr.same_plain (.struct fs) (.struct gs)
    simp only [Expr.plain, visibleDifference?, hsame, Fields.extendedBy_plain]
  · have hplain : ∀ fs gs, a.plain = .struct fs → b.plain = .struct gs → False := by
      intro fs gs ha hb
      cases a <;> simp only [Expr.plain, reduceCtorEq] at ha
      cases b <;> simp only [Expr.plain, reduceCtorEq] at hb
      exact h ⟨_, _, rfl, rfl⟩
    rw [visibleDifference?_of_not_structs hplain,
      visibleDifference?_of_not_structs fun fs gs ha hb => h ⟨fs, gs, ha, hb⟩, Expr.same_plain]

/-! ## Names of types -/

/-- Plain spelling keeps the name of the type behind pointers and type arguments. -/
@[simp] theorem Expr.baseTypeName_plain (e : Expr) : e.plain.baseTypeName = e.baseTypeName := by
  induction e using Expr.childInduction with
  | step e ih =>
    cases e with
    | pointer e | paren e => exact ih e (List.mem_singleton_self e)
    | index e es => exact ih e List.mem_cons_self
    | _ => rfl

@[simp] theorem Expr.namedType?_plain (e : Expr) : e.plain.namedType? = e.namedType? := by
  cases e <;> rfl

/-- Pointers and parentheses are stripped alike. -/
theorem Expr.stripPointers_plain (e : Expr) : e.plain.stripPointers = e.stripPointers.plain := by
  induction e using Expr.childInduction with
  | step e ih =>
    cases e with
    | pointer e | paren e => exact ih e (List.mem_singleton_self e)
    | _ => rfl

/-- A receiver names its type arguments alike. -/
@[simp] theorem Expr.receiverParams_plain (e : Expr) :
    e.plain.receiverParams = e.receiverParams := by
  have hname : ∀ e : Expr, e.plain.identName? = e.identName? := by
    intro e
    cases e <;> rfl
  rw [Expr.receiverParams, Expr.receiverParams, Expr.stripPointers_plain]
  cases e.stripPointers with
  | index e args =>
    simp only [Expr.plain, Expr.plainList_eq_map, List.filterMap_map]
    congr 1
    funext a
    exact hname a
  | _ => rfl

/-! ## Resolving -/

/-- Replacing references in a plain field list, if this is so for its types. -/
theorem Fields.mapRefs_plain (f : Ident → Ident) (named : Bool) {fs : Fields}
    (h : ∀ t ∈ Fields.slotTypes fs, t.plain.mapRefs f = (t.mapRefs f).plain) :
    Fields.mapRefs f (Fields.plain named fs) = Fields.plain named (Fields.mapRefs f fs) := by
  rw [Fields.plain_eq, Fields.plain_eq, Fields.mapRefs_eq_map, Fields.slots_mapRefs, List.map_map,
    List.map_map, List.map_map, List.map_map]
  apply List.map_congr_left
  intro s hs
  have htype := h s.type (List.mem_map_of_mem hs)
  simp [Slot.plain, Slot.field, Field.mapRefs, htype]

/-- Replacing references in a plain signature, if this is so for its types. -/
theorem Signature.mapRefs_plain (f : Ident → Ident) {s : Signature}
    (h : ∀ t ∈ s.slotTypes, t.plain.mapRefs f = (t.mapRefs f).plain) :
    s.plain.mapRefs f = (s.mapRefs f).plain := by
  cases s with
  | mk ts ps rs =>
    simp only [Signature.slotTypes, List.forall_mem_append] at h
    obtain ⟨⟨hts, hps⟩, hrs⟩ := h
    simp only [Signature.plain, Signature.mapRefs, Fields.mapRefs_plain f _ hts,
      Fields.mapRefs_plain f _ hps, Fields.mapRefs_plain f _ hrs]

/-- Replacing references and plain spelling go along with each other. -/
theorem Expr.mapRefs_plain (f : Ident → Ident) (e : Expr) :
    e.plain.mapRefs f = (e.mapRefs f).plain := by
  induction e using Expr.childInduction with
  | step e ih =>
    have hrow : ∀ es : List Expr, (∀ c ∈ es, c.plain.mapRefs f = (c.mapRefs f).plain) →
        Expr.mapRefsList f (Expr.plainList es) = Expr.plainList (Expr.mapRefsList f es) := by
      intro es hes
      rw [Expr.plainList_eq_map, Expr.mapRefsList_eq_map, Expr.plainList_eq_map,
        Expr.mapRefsList_eq_map, List.map_map, List.map_map]
      exact List.map_congr_left hes
    cases e with
    | func s | funcLit s => simp only [Expr.plain, Expr.mapRefs, Signature.mapRefs_plain f ih]
    | struct fs | interface fs =>
      simp only [Expr.plain, Expr.mapRefs, Fields.mapRefs_plain f _ ih]
    | index e es | call e es =>
      obtain ⟨he, hes⟩ := List.forall_mem_cons.mp ih
      simp only [Expr.plain, Expr.mapRefs, he, hrow es hes]
    | union es => simp only [Expr.plain, Expr.mapRefs, hrow es ih]
    | composite t es =>
      obtain ⟨ht, hes⟩ := List.forall_mem_append.mp ih
      have htype : Expr.mapRefsOption f (Expr.plainOption t) =
          Expr.plainOption (Expr.mapRefsOption f t) := by
        cases t with
        | none => rfl
        | some t => exact congrArg some (ht t (List.mem_singleton_self t))
      simp only [Expr.plain, Expr.mapRefs, htype, hrow es hes]
    | sliceExpr e bs =>
      obtain ⟨he, hbs⟩ := List.forall_mem_cons.mp ih
      have hbounds : Expr.mapRefsOptions f (Expr.plainOptions bs) =
          Expr.plainOptions (Expr.mapRefsOptions f bs) := by
        rw [Expr.plainOptions_eq_map, Expr.mapRefsOptions_eq_map, Expr.plainOptions_eq_map,
          Expr.mapRefsOptions_eq_map, List.map_map, List.map_map]
        apply List.map_congr_left
        rintro (_ | b) hb
        · rfl
        · exact congrArg some (hbs b (List.mem_flatMap.mpr ⟨some b, hb, List.mem_singleton_self b⟩))
      simp only [Expr.plain, Expr.mapRefs, he, hbounds]
    | ident | lit | unsupported => rfl
    | array | map | binary | keyValue | typeAssert =>
      simp only [Expr.children, Expr.parts, List.forall_mem_cons] at ih
      simp only [Expr.plain, Expr.mapRefs, ih.1, ih.2.1]
    | _ =>
      simp only [Expr.children, Expr.parts, List.forall_mem_singleton] at ih
      simp only [Expr.plain, Expr.mapRefs, ih]

/-! ## Filtering -/

theorem Slot.isVisible_plain (s : Slot) : (s.plain true).isVisible = s.isVisible := by
  obtain ⟨_ | x, t, tag⟩ := s
  · simp [Slot.isVisible, Slot.plain, Expr.hasExportedBase]
  · rfl

/-- What is visible of fields with single slots. -/
theorem Fields.exportedOnly_map_field (ss : List Slot) :
    Fields.exportedOnly (ss.map Slot.field) =
      ((ss.filter Slot.isVisible).map fun s => { s with type := s.type.exportedOnly }).map
        Slot.field := by
  induction ss with
  | nil => rfl
  | cons s ss ih =>
    have hfield : s.field.exportedOnly = if s.isVisible then
        [Slot.field { s with type := s.type.exportedOnly }] else [] := by
      obtain ⟨_ | x, t, tag⟩ := s
      · rfl
      · cases h : x.isExported <;>
          simp [Slot.field, Field.exportedOnly, Slot.isVisible, h]
    rw [List.map_cons, Fields.exportedOnly, ih, hfield]
    cases h : s.isVisible <;> simp [h]

/-- The visible fields of a plain list, if this is so for its types. -/
theorem Fields.exportedOnly_plain {fs : Fields}
    (h : ∀ t ∈ Fields.slotTypes fs, t.plain.exportedOnly = t.exportedOnly.plain) :
    Fields.exportedOnly (Fields.plain true fs) = Fields.plain true (Fields.exportedOnly fs) := by
  have hvisible : Slot.isVisible ∘ Slot.plain true = Slot.isVisible := by
    funext s
    exact Slot.isVisible_plain s
  rw [Fields.plain_eq, Fields.exportedOnly_map_field, Fields.plain_eq, Fields.slots_exportedOnly,
    List.filter_map, hvisible]
  simp only [List.map_map]
  apply List.map_congr_left
  intro s hs
  have htype := h s.type (List.mem_map_of_mem (List.mem_filter.mp hs).1)
  simp [Slot.plain, htype]

/-- Filtering and plain spelling go along with each other. -/
theorem Expr.exportedOnly_plain (e : Expr) : e.plain.exportedOnly = e.exportedOnly.plain := by
  induction e using Expr.childInduction with
  | step e ih =>
    cases e with
    | struct fs => simp only [Expr.plain, Expr.exportedOnly, Fields.exportedOnly_plain ih]
    | array | map =>
      simp only [Expr.children, Expr.parts, List.forall_mem_cons] at ih
      simp only [Expr.plain, Expr.exportedOnly, ih.1, ih.2.1]
    | pointer | slice | paren | chan =>
      simp only [Expr.children, Expr.parts, List.forall_mem_singleton] at ih
      simp only [Expr.plain, Expr.exportedOnly, ih]
    | _ => rfl

end GoSurface
