/-
# How far filtering reaches

Filtering keeps the visible fields of a struct and goes on inside their types, and it goes through
pointers, slices, parentheses, arrays, maps and channels.  A type of any other form it takes over as
it is, and so it does with the length of an array.  What is reached is clean, and stays the same if
it is filtered again.  A struct below a function type, an interface or a type argument keeps its
hidden fields.

* `Expr.exportedOnly_exportedOnly`: filtering twice is filtering once;
* `exportedOnly_filters_slots`: filtering a field list keeps its visible slots;
* `Expr.Contains`, `Expr.Reaches`: the trees in a tree, and those that filtering gets to;
* `Expr.Retains`: the trees that filtering takes over;
* `Expr.clean_exportedOnly_iff`: when a filtered type has no hidden field left;
* `not_clean_exportedOnly_callback`: a hidden field that is left.
-/
import GoSurface.Proofs.Members

namespace GoSurface

/-! ## Base names -/

/-- Filtering keeps the name of the type behind pointers and parentheses. -/
@[simp] theorem Expr.baseTypeName_exportedOnly (e : Expr) :
    e.exportedOnly.baseTypeName = e.baseTypeName := by
  induction e using Expr.childInduction with
  | step e ih =>
    cases e with
    | pointer e | paren e => exact ih e (List.mem_singleton_self e)
    | _ => rfl

/-- Filtering the type of a slot does not decide whether it is visible. -/
@[simp] theorem Slot.isVisible_exportedOnly (s : Slot) :
    Slot.isVisible { s with type := s.type.exportedOnly } = s.isVisible := by
  obtain ⟨_ | x, t, tag⟩ := s
  · simp [Slot.isVisible, Expr.hasExportedBase]
  · rfl

/-! ## Filtering twice -/

/-- Filtering goes field by field. -/
theorem Fields.exportedOnly_append (fs gs : Fields) :
    Fields.exportedOnly (fs ++ gs) = Fields.exportedOnly fs ++ Fields.exportedOnly gs := by
  induction fs with
  | nil => rfl
  | cons f fs ih =>
    rw [List.cons_append, Fields.exportedOnly, Fields.exportedOnly, ih, List.append_assoc]

/-- What is left of a field is left if it is filtered again, if this is so for its type. -/
theorem Field.exportedOnly_exportedOnly {f : Field}
    (h : f.type.exportedOnly.exportedOnly = f.type.exportedOnly) :
    Fields.exportedOnly f.exportedOnly = f.exportedOnly := by
  obtain ⟨xs, t, tag⟩ := f
  cases xs with
  | nil =>
    have hbase : t.exportedOnly.hasExportedBase = t.hasExportedBase := by
      simp [Expr.hasExportedBase]
    cases hvisible : t.hasExportedBase <;>
      simp_all [Field.exportedOnly, Fields.exportedOnly]
  | cons x xs =>
    rw [Field.exportedOnly]
    cases hnames : (x :: xs).filter Ident.isExported with
    | nil => rfl
    | cons y ys =>
      have hagain : (y :: ys).filter Ident.isExported = y :: ys := by
        rw [← hnames, List.filter_filter]
        simp only [Bool.and_self]
      simp only [Fields.exportedOnly, Field.exportedOnly, hagain, List.append_nil, List.cons.injEq,
        Field.mk.injEq, true_and, and_true]
      exact h

/-- What is left of a struct is left if it is filtered again, if this is so for its types. -/
theorem Fields.exportedOnly_exportedOnly {fs : Fields}
    (h : ∀ t ∈ Fields.slotTypes fs, t.exportedOnly.exportedOnly = t.exportedOnly) :
    Fields.exportedOnly (Fields.exportedOnly fs) = Fields.exportedOnly fs := by
  induction fs with
  | nil => rfl
  | cons f fs ih =>
    obtain ⟨hf, hfs⟩ := Fields.forall_slotTypes_cons.mp h
    rw [Fields.exportedOnly, Fields.exportedOnly_append, Field.exportedOnly_exportedOnly hf,
      ih hfs]

/-- **Filtering twice** is filtering once. -/
@[simp] theorem Expr.exportedOnly_exportedOnly (e : Expr) :
    e.exportedOnly.exportedOnly = e.exportedOnly := by
  induction e using Expr.childInduction with
  | step e ih =>
    cases e with
    | struct fs => simp only [Expr.exportedOnly, Fields.exportedOnly_exportedOnly ih]
    | array | map =>
      simp only [Expr.children, Expr.parts, List.forall_mem_cons] at ih
      simp only [Expr.exportedOnly, ih.1, ih.2.1]
    | pointer | slice | paren | chan =>
      simp only [Expr.children, Expr.parts, List.forall_mem_singleton] at ih
      simp only [Expr.exportedOnly, ih]
    | _ => rfl

/-- **Filtering goes slot by slot.**  The slots that are left of a field list are its visible ones,
in order, with their names and tags and with their types filtered.  Filtering keeps the base name of
a type, by which an embedded slot is visible, and filtering again changes nothing. -/
theorem exportedOnly_filters_slots :
    (∀ fs : Fields, Fields.slots (Fields.exportedOnly fs) =
        ((Fields.slots fs).filter Slot.isVisible).map
          fun s => { s with type := s.type.exportedOnly }) ∧
      ∀ e : Expr, e.exportedOnly.baseTypeName = e.baseTypeName ∧
        e.exportedOnly.exportedOnly = e.exportedOnly :=
  ⟨Fields.slots_exportedOnly, fun e => ⟨e.baseTypeName_exportedOnly, e.exportedOnly_exportedOnly⟩⟩

-- A group without an exported name goes as a whole, and does not become an embedded `Counter`.
example : Fields.exportedOnly [⟨[⟨"hits", none⟩, ⟨"misses", none⟩], .ident ⟨"Counter", none⟩, none⟩,
    ⟨[], .pointer (.ident ⟨"Counter", none⟩), none⟩] =
    [⟨[], .pointer (.ident ⟨"Counter", none⟩), none⟩] := rfl

/-! ## Trees in a tree -/

/-- The second tree is the first one or stands somewhere in it, compared or not. -/
inductive Expr.Contains : Expr → Expr → Prop
  | root (e : Expr) : Expr.Contains e e
  | child {e c x : Expr} : c ∈ e.children → Expr.Contains c x → Expr.Contains e x

/-- All fields of a list can be seen: their names are exported, or they are embedded and the base
name of their type is. -/
def Fields.AllVisible (fs : Fields) : Prop :=
  ∀ s ∈ Fields.slots fs, s.isVisible = true

/-- Every struct in the tree, at any depth and below any form, has visible fields only. -/
def Expr.Clean (e : Expr) : Prop :=
  ∀ fs, e.Contains (.struct fs) → Fields.AllVisible fs

/-- A tree is clean when it is so at its root and directly below. -/
theorem Expr.clean_iff {e : Expr} :
    e.Clean ↔ (∀ fs, e = .struct fs → Fields.AllVisible fs) ∧ ∀ c ∈ e.children, c.Clean := by
  constructor
  · intro h
    refine ⟨?_, fun c hc fs hfs => h fs (.child hc hfs)⟩
    rintro fs rfl
    exact h fs (.root _)
  · rintro ⟨hroot, hchildren⟩ fs (_ | ⟨hc, hfs⟩)
    · exact hroot fs rfl
    · exact hchildren _ hc fs hfs

/-- What is left of a struct can be seen. -/
theorem Fields.allVisible_exportedOnly (fs : Fields) :
    Fields.AllVisible (Fields.exportedOnly fs) := by
  intro s hs
  rw [Fields.slots_exportedOnly] at hs
  obtain ⟨r, hr, rfl⟩ := List.mem_map.mp hs
  rw [Slot.isVisible_exportedOnly]
  exact (List.mem_filter.mp hr).2

/-! ## What filtering goes into -/

/-- The types directly inside a type of a form that filtering goes into. -/
def Expr.innerTypes : Expr → List Expr
  | .struct fs => Fields.slotTypes fs
  | .pointer e => [e]
  | .slice e => [e]
  | .paren e => [e]
  | .array _ e => [e]
  | .map k v => [k, v]
  | .chan _ e => [e]
  | _ => []

/-- The inner types that filtering does not drop with their slots. -/
def Expr.visibleTypes : Expr → List Expr
  | .struct fs => ((Fields.slots fs).filter Slot.isVisible).map Slot.type
  | e => e.innerTypes

/-- What filtering takes over from a root as it is: the length of an array, and a tree of any form
that it does not go into, as a whole. -/
def Expr.untouched : Expr → List Expr
  | .struct _ => []
  | .pointer _ => []
  | .slice _ => []
  | .paren _ => []
  | .array n _ => [n]
  | .map _ _ => []
  | .chan _ _ => []
  | e => [e]

/-- The second tree is the first one or is reached from it through inner types. -/
inductive Expr.Reaches : Expr → Expr → Prop
  | root (e : Expr) : Expr.Reaches e e
  | inner {e c x : Expr} : c ∈ e.innerTypes → Expr.Reaches c x → Expr.Reaches e x

/-- Filtering the first tree takes over the second as it is. -/
inductive Expr.Retains : Expr → Expr → Prop
  | here {e x : Expr} : x ∈ e.untouched → Expr.Retains e x
  | inner {e c x : Expr} : c ∈ e.visibleTypes → Expr.Retains c x → Expr.Retains e x

/-- Inner types stand directly below the root. -/
theorem Expr.mem_children_of_visibleTypes {e c : Expr} (h : c ∈ e.visibleTypes) :
    c ∈ e.children := by
  cases e with
  | struct fs =>
    obtain ⟨s, hs, rfl⟩ := List.mem_map.mp h
    exact List.mem_map_of_mem (List.mem_filter.mp hs).1
  | array n e =>
    obtain rfl := List.mem_singleton.mp h
    exact List.mem_cons_of_mem _ (List.mem_singleton_self c)
  | pointer | slice | paren | map | chan => exact h
  | _ => exact absurd h List.not_mem_nil

/-- The inner types of a filtered type are those that were visible, filtered. -/
theorem Expr.innerTypes_exportedOnly (e : Expr) :
    e.exportedOnly.innerTypes = e.visibleTypes.map Expr.exportedOnly := by
  cases e with
  | struct fs =>
    simp only [Expr.exportedOnly, Expr.innerTypes, Expr.visibleTypes, Fields.slotTypes,
      Fields.slots_exportedOnly, List.map_map]
    rfl
  | _ => rfl

/-- A tree is either taken over as a whole, or filtering takes over some trees directly below the
root and filters the others. -/
theorem Expr.exportedOnly_root (e : Expr) :
    (e.untouched = [e] ∧ e.visibleTypes = [] ∧ e.exportedOnly = e) ∨
      e.exportedOnly.children = e.untouched ++ e.visibleTypes.map Expr.exportedOnly := by
  cases e with
  | struct fs =>
    right
    simp only [Expr.exportedOnly, Expr.children, Expr.parts, Expr.untouched, Expr.visibleTypes,
      Fields.slotTypes, Fields.slots_exportedOnly, List.map_map, List.nil_append]
    rfl
  | pointer | slice | paren | array | map | chan => exact Or.inr rfl
  | _ => exact Or.inl ⟨rfl, rfl, rfl⟩

/-! ## What is clean after filtering -/

/-- A struct that comes out of filtering has visible fields only. -/
theorem Expr.allVisible_of_exportedOnly_eq {e : Expr} {fs : Fields}
    (h : e.exportedOnly = .struct fs) : Fields.AllVisible fs := by
  cases e with
  | struct gs =>
    obtain rfl := Expr.struct.inj h
    exact Fields.allVisible_exportedOnly gs
  | _ => cases h

/-- Every struct that is reached in a filtered type has visible fields only. -/
theorem Expr.allVisible_of_reaches {e : Expr} {fs : Fields}
    (h : e.exportedOnly.Reaches (.struct fs)) : Fields.AllVisible fs := by
  induction e using Expr.childInduction with
  | step e ih =>
    generalize hfiltered : e.exportedOnly = filtered at h
    cases h with
    | root => exact Expr.allVisible_of_exportedOnly_eq hfiltered
    | inner hc hrest =>
      rw [← hfiltered, Expr.innerTypes_exportedOnly] at hc
      obtain ⟨d, hd, rfl⟩ := List.mem_map.mp hc
      exact ih d (Expr.mem_children_of_visibleTypes hd) hrest

/-- A filtered type is clean exactly when all that was taken over is. -/
theorem Expr.clean_exportedOnly_iff (e : Expr) :
    e.exportedOnly.Clean ↔ ∀ x, e.Retains x → x.Clean := by
  induction e using Expr.childInduction with
  | step e ih =>
    rcases e.exportedOnly_root with ⟨hwhole, hnone, hsame⟩ | hchildren
    · rw [hsame]
      constructor
      · intro hclean x hx
        cases hx with
        | here hx =>
          rw [hwhole, List.mem_singleton] at hx
          exact hx ▸ hclean
        | inner hc _ =>
          rw [hnone] at hc
          exact absurd hc List.not_mem_nil
      · intro hretained
        exact hretained e (.here (hwhole ▸ List.mem_singleton_self e))
    · rw [Expr.clean_iff, hchildren, List.forall_mem_append, List.forall_mem_map]
      constructor
      · rintro ⟨-, huntouched, hvisible⟩ x hx
        cases hx with
        | here hx => exact huntouched x hx
        | inner hc hx => exact (ih _ (Expr.mem_children_of_visibleTypes hc)).mp (hvisible _ hc) x hx
      · intro hretained
        refine ⟨fun fs hfs => Expr.allVisible_of_exportedOnly_eq hfs,
          fun x hx => hretained x (.here hx), ?_⟩
        intro c hc
        refine (ih c (Expr.mem_children_of_visibleTypes hc)).mpr ?_
        exact fun x hx => hretained x (.inner hc hx)

/-- **How far filtering reaches.**  In a filtered type, every struct that is reached through struct
fields, pointers, slices, parentheses, array elements, map keys and values and channel elements has
visible fields only.  So has every struct in it, wherever it stands, exactly when this is so in all
trees that filtering takes over: the lengths of arrays, and what is of another form. -/
theorem exportedOnly_reaches (e : Expr) :
    (∀ fs, e.exportedOnly.Reaches (.struct fs) → Fields.AllVisible fs) ∧
      (e.exportedOnly.Clean ↔ ∀ x, e.Retains x → x.Clean) :=
  ⟨fun _ h => Expr.allVisible_of_reaches h, e.clean_exportedOnly_iff⟩

/-- A struct with numbers. -/
def counterType (names : List String) : Expr :=
  .struct [⟨names.map (⟨·, none⟩), .ident ⟨"int", none⟩, none⟩]

/-- A struct that holds a map from numbers to pointers to another struct, and a hidden number. -/
def registryType (inner : Expr) : Expr :=
  .struct [⟨[⟨"Entries", none⟩], .map (.ident ⟨"int", none⟩) (.pointer inner), none⟩,
    ⟨[⟨"size", none⟩], .ident ⟨"int", none⟩, none⟩]

/-- A struct in a map of pointers is reached, and only its visible number is left. -/
theorem exportedOnly_reaches_registry :
    (registryType (counterType ["Hits", "last"])).exportedOnly.Reaches (counterType ["Hits"]) ∧
    Fields.AllVisible [⟨[⟨"Hits", none⟩], .ident ⟨"int", none⟩, none⟩] := by
  have hreached : (registryType (counterType ["Hits", "last"])).exportedOnly.Reaches
      (counterType ["Hits"]) :=
    .inner List.mem_cons_self (.inner (List.mem_cons_of_mem _ List.mem_cons_self)
      (.inner List.mem_cons_self (.root _)))
  exact ⟨hreached, (exportedOnly_reaches _).1 _ hreached⟩

/-- A function type with a struct as its parameter. -/
def callbackType : Expr :=
  .func ⟨[], [⟨[], counterType ["hits"], none⟩], []⟩

/-- The hidden field of a struct that is a parameter is not dropped. -/
theorem not_clean_exportedOnly_callback :
    callbackType.exportedOnly = callbackType ∧ ¬ callbackType.exportedOnly.Clean := by
  refine ⟨rfl, ?_⟩
  intro hclean
  have hhidden := hclean _ (.child List.mem_cons_self (.root (counterType ["hits"]))) _
    List.mem_cons_self
  exact absurd hhidden (by decide)

end GoSurface
