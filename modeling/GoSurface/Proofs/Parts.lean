/-
# Trees by form, labels and parts

Comparing two trees looks at the form of the two roots, at the names written there that count, and
then at the trees below, position by position.  This module splits a tree in that way, so that a
law of structural equality is an induction over parts with a single case.

* `Expr.form`, `Expr.labels`, `Expr.parts`: what is compared literally, as names, and as trees;
* `Expr.same_iff`: two trees are the same when their forms are equal and understood, their labels
  agree and their parts are the same;
* `Expr.Compares`: the trees that comparing a tree looks at;
* `Expr.childInduction`, `Expr.partInduction`: induction over everything below a root, and over
  what is compared there.
-/
import GoSurface.Compare.Equality
import Mathlib.Data.List.Forall2

namespace GoSurface

/-! ## Rows related position by position -/

section Rows

variable {α β γ : Type}

/-- Rows of concatenations whose first halves have one length are related half by half. -/
theorem forall₂_append_iff {R : α → β → Prop} {as cs : List α} {bs ds : List β}
    (h : as.length = bs.length) :
    List.Forall₂ R (as ++ cs) (bs ++ ds) ↔ List.Forall₂ R as bs ∧ List.Forall₂ R cs ds := by
  induction as generalizing bs with
  | nil =>
    obtain rfl : bs = [] := List.length_eq_zero_iff.mp h.symm
    simp
  | cons a as ih =>
    cases bs with
    | nil => simp at h
    | cons b bs => simp [ih (by simpa using h), and_assoc]

/-- Rows are related by two relations at once when they are by each. -/
theorem forall₂_and_iff {R S : α → β → Prop} {as : List α} {bs : List β} :
    List.Forall₂ (fun a b => R a b ∧ S a b) as bs ↔
      List.Forall₂ R as bs ∧ List.Forall₂ S as bs := by
  induction as generalizing bs with
  | nil => simp
  | cons a as ih => cases bs <;> simp [ih, and_assoc, and_left_comm]

/-- Relations of rows compose, if they do so for the entries of the three rows. -/
theorem forall₂_trans {R : α → β → Prop} {S : β → γ → Prop} {T : α → γ → Prop}
    {as : List α} {bs : List β} {cs : List γ}
    (h : ∀ a ∈ as, ∀ b ∈ bs, ∀ c ∈ cs, R a b → S b c → T a c)
    (hab : List.Forall₂ R as bs) (hbc : List.Forall₂ S bs cs) : List.Forall₂ T as cs := by
  induction hab generalizing cs with
  | nil =>
    cases hbc
    exact .nil
  | @cons a b as bs hR _ ih =>
    obtain ⟨c, cs, hS, htail, rfl⟩ := List.forall₂_cons_left_iff.mp hbc
    refine .cons (h a (by simp) b (by simp) c (by simp) hR hS) (ih ?_ htail)
    intro a' ha b' hb c' hc
    exact h a' (by simp [ha]) b' (by simp [hb]) c' (by simp [hc])

/-- Rows are related in one direction as their entries are in the other. -/
theorem forall₂_swap_iff {R : α → β → Prop} {S : β → α → Prop} {as : List α} {bs : List β}
    (h : ∀ a ∈ as, ∀ b ∈ bs, R a b ↔ S b a) :
    List.Forall₂ R as bs ↔ List.Forall₂ S bs as := by
  induction as generalizing bs with
  | nil => cases bs <;> simp
  | cons a as ih =>
    cases bs with
    | nil => simp
    | cons b bs =>
      rw [List.forall₂_cons, List.forall₂_cons, h a (by simp) b (by simp),
        ih fun a' ha b' hb => h a' (by simp [ha]) b' (by simp [hb])]

theorem forall₂_congr_mem {R S : α → β → Prop} {as : List α} {bs : List β}
    (h : ∀ a ∈ as, ∀ b ∈ bs, R a b ↔ S a b) : List.Forall₂ R as bs ↔ List.Forall₂ S as bs :=
  (forall₂_swap_iff h).trans (forall₂_swap_iff fun _ _ _ _ => Iff.rfl)

theorem forall₂_iff_map_eq {f : α → β} {as bs : List α} :
    List.Forall₂ (fun a b => f a = f b) as bs ↔ as.map f = bs.map f := by
  rw [← List.forall₂_eq_eq_eq, List.forall₂_map_left_iff, List.forall₂_map_right_iff]

end Rows

/-! ## Field lists -/

/-- The tags of a field list, slot by slot. -/
def Fields.tags (fs : Fields) : List (Option Lit) :=
  (Fields.slots fs).map Slot.tag

/-- The names of a field list, slot by slot. -/
def Fields.labels (fs : Fields) : List (Option Ident) :=
  (Fields.slots fs).map Slot.name

/-- The types of a field list, slot by slot. -/
def Fields.slotTypes (fs : Fields) : List Expr :=
  (Fields.slots fs).map Slot.type

/-- The types of the slots are the types of the fields, repeated for grouped names. -/
theorem Fields.mem_slotTypes {fs : Fields} {t : Expr} :
    t ∈ Fields.slotTypes fs ↔ ∃ f ∈ fs, f.type = t := by
  simp only [Fields.slotTypes, Fields.slots, Field.slots, List.mem_map, List.mem_flatMap]
  constructor
  · rintro ⟨s, ⟨f, hf, x, _, rfl⟩, rfl⟩
    exact ⟨f, hf, rfl⟩
  · rintro ⟨f, hf, rfl⟩
    obtain ⟨x, hx⟩ := List.exists_mem_of_ne_nil _ (slotNames_ne_nil f.names)
    exact ⟨_, ⟨f, hf, x, hx, rfl⟩, rfl⟩

theorem Fields.forall_slotTypes_cons {f : Field} {fs : Fields} {P : Expr → Prop} :
    (∀ t ∈ Fields.slotTypes (f :: fs), P t) ↔ P f.type ∧ ∀ t ∈ Fields.slotTypes fs, P t := by
  simp only [Fields.mem_slotTypes, List.exists_mem_cons_iff, or_imp, forall_and, forall_eq']

theorem Fields.length_slotTypes_eq {fs gs : Fields} (h : Fields.tags fs = Fields.tags gs) :
    (Fields.slotTypes fs).length = (Fields.slotTypes gs).length := by
  have hlen := congrArg List.length h
  simpa [Fields.tags, Fields.slotTypes] using hlen

/-- A field list agrees with a row of slots position by position. -/
theorem Fields.sameSlots_iff (m : NameMode) (fs : Fields) (ss : List Slot) :
    Fields.sameSlots m fs ss = true ↔
      List.Forall₂ (fun a b => a.same m b = true) (Fields.slots fs) ss := by
  rw [Fields.sameSlots_eq, List.forall₂_iff_zip]
  simp

theorem Fields.same_iff (m : NameMode) (fs gs : Fields) :
    Fields.same m fs gs = true ↔
      List.Forall₂ (fun a b => a.same m b = true) (Fields.slots fs) (Fields.slots gs) :=
  Fields.sameSlots_iff m fs (Fields.slots gs)

/-- With names that do not count, tags are equal and types the same. -/
theorem Fields.same_ignored_iff (fs gs : Fields) :
    Fields.same .ignored fs gs = true ↔ Fields.tags fs = Fields.tags gs ∧
      List.Forall₂ (fun a b => a.same b = true) (Fields.slotTypes fs) (Fields.slotTypes gs) := by
  rw [Fields.same_iff, Fields.tags, Fields.tags, Fields.slotTypes, Fields.slotTypes,
    ← List.forall₂_eq_eq_eq]
  simp only [List.forall₂_map_left_iff, List.forall₂_map_right_iff, ← forall₂_and_iff]
  simp [Slot.same, NameMode.agree]

/-- With names that count, these agree as well. -/
theorem Fields.same_significant_iff (fs gs : Fields) :
    Fields.same .significant fs gs = true ↔ Fields.tags fs = Fields.tags gs ∧
      List.Forall₂ (fun x y => NameMode.significant.agree x y = true)
        (Fields.labels fs) (Fields.labels gs) ∧
      List.Forall₂ (fun a b => a.same b = true) (Fields.slotTypes fs) (Fields.slotTypes gs) := by
  rw [Fields.same_iff, Fields.tags, Fields.tags, Fields.slotTypes, Fields.slotTypes,
    Fields.labels, Fields.labels, ← List.forall₂_eq_eq_eq]
  simp only [List.forall₂_map_left_iff, List.forall₂_map_right_iff, ← forall₂_and_iff]
  simp [Slot.same, and_assoc, and_left_comm]

/-! ## Signatures -/

/-- The tags of the three lists of a signature. -/
def Signature.tags (s : Signature) : List (List (Option Lit)) :=
  [Fields.tags s.typeParams, Fields.tags s.params, Fields.tags s.results]

/-- The types of all slots of a signature. -/
def Signature.slotTypes (s : Signature) : List Expr :=
  Fields.slotTypes s.typeParams ++ Fields.slotTypes s.params ++ Fields.slotTypes s.results

/-- Signatures are the same when their tags are equal list by list and the types of their slots
are the same. -/
theorem Signature.same_iff (s t : Signature) :
    s.same t = true ↔ s.tags = t.tags ∧
      List.Forall₂ (fun a b => a.same b = true) s.slotTypes t.slotTypes := by
  have hlists : s.same t = true ↔ Fields.same .ignored s.typeParams t.typeParams = true ∧
      Fields.same .ignored s.params t.params = true ∧
      Fields.same .ignored s.results t.results = true := by
    cases s
    simp [Signature.same, Fields.same, and_assoc]
  rw [hlists, Fields.same_ignored_iff, Fields.same_ignored_iff, Fields.same_ignored_iff]
  simp only [Signature.tags, Signature.slotTypes, List.cons.injEq, and_true]
  constructor
  · rintro ⟨⟨ht, hts⟩, ⟨hp, hps⟩, hr, hrs⟩
    exact ⟨⟨ht, hp, hr⟩, List.rel_append (List.rel_append hts hps) hrs⟩
  · rintro ⟨⟨ht, hp, hr⟩, h⟩
    -- Equal tags cut the row of types at the same places on both sides.
    have hlt := Fields.length_slotTypes_eq ht
    have hlp := Fields.length_slotTypes_eq hp
    rw [forall₂_append_iff (by simp [hlt, hlp]), forall₂_append_iff hlt] at h
    obtain ⟨⟨hts, hps⟩, hrs⟩ := h
    exact ⟨⟨ht, hts⟩, ⟨hp, hps⟩, hr, hrs⟩

/-! ## Forms, labels and parts -/

/-- What a root shows of itself that is compared literally: its kind, and whatever operator,
direction, literal or tag stands there. -/
inductive Form where
  | ident
  | lit (l : Lit)
  | ellipsis
  | pointer
  | slice
  | paren
  | tilde
  | array
  | map
  | chan (dir : ChanDir)
  | func (tags : List (List (Option Lit)))
  | struct (tags : List (Option Lit))
  | interface (tags : List (Option Lit))
  | selector
  | index
  | union
  | call
  | binary (op : String)
  | unary (op : String)
  | keyValue
  | composite (typed : Bool)
  | funcLit (tags : List (List (Option Lit)))
  | sliceExpr (present : List Bool)
  | typeAssert
  | unsupported
deriving DecidableEq

/-- The form of a tree's root. -/
def Expr.form : Expr → Form
  | .ident _ => .ident
  | .lit l => .lit l
  | .ellipsis _ => .ellipsis
  | .pointer _ => .pointer
  | .slice _ => .slice
  | .paren _ => .paren
  | .tilde _ => .tilde
  | .array _ _ => .array
  | .map _ _ => .map
  | .chan d _ => .chan d
  | .func s => .func s.tags
  | .struct fs => .struct (Fields.tags fs)
  | .interface fs => .interface (Fields.tags fs)
  | .selector _ _ => .selector
  | .index _ _ => .index
  | .union _ => .union
  | .call _ _ => .call
  | .binary op _ _ => .binary op
  | .unary op _ => .unary op
  | .keyValue _ _ => .keyValue
  | .composite t _ => .composite t.isSome
  | .funcLit s => .funcLit s.tags
  | .sliceExpr _ bs => .sliceExpr (bs.map Option.isSome)
  | .typeAssert _ _ => .typeAssert
  | .unsupported _ => .unsupported

/-- The names at a tree's root that count: an identifier, a selected name, and the names of struct
fields and interface elements. -/
def Expr.labels : Expr → List (Option Ident)
  | .ident x => [some x]
  | .selector _ x => [some x]
  | .struct fs => Fields.labels fs
  | .interface fs => Fields.labels fs
  | _ => []

/-- The trees directly below a root that are compared.  The operand of a selected name is not
among them. -/
def Expr.parts : Expr → List Expr
  | .ellipsis e => [e]
  | .pointer e => [e]
  | .slice e => [e]
  | .paren e => [e]
  | .tilde e => [e]
  | .array n e => [n, e]
  | .map k v => [k, v]
  | .chan _ e => [e]
  | .func s => s.slotTypes
  | .struct fs => Fields.slotTypes fs
  | .interface fs => Fields.slotTypes fs
  | .index e es => e :: es
  | .union es => es
  | .call e es => e :: es
  | .binary _ l r => [l, r]
  | .unary _ e => [e]
  | .keyValue k v => [k, v]
  | .composite t es => t.toList ++ es
  | .funcLit s => s.slotTypes
  | .sliceExpr e bs => e :: bs.flatMap Option.toList
  | .typeAssert e t => [e, t]
  | .ident _ | .lit _ | .selector _ _ | .unsupported _ => []

/-- Rows of trees are the same position by position. -/
theorem Expr.sameList_iff (as bs : List Expr) :
    Expr.sameList as bs = true ↔ List.Forall₂ (fun a b => a.same b = true) as bs := by
  induction as generalizing bs with
  | nil => cases bs <;> simp [Expr.sameList]
  | cons a as ih => cases bs <;> simp [Expr.sameList, ih]

/-- Trees that may be absent are the same when both are present or neither is, and those present
are the same. -/
theorem Expr.sameOption_iff (a b : Option Expr) :
    Expr.sameOption a b = true ↔ a.isSome = b.isSome ∧
      List.Forall₂ (fun a b => a.same b = true) a.toList b.toList := by
  cases a <;> cases b <;> simp [Expr.sameOption]

/-- Rows of trees that may be absent have the same gaps, and the trees present are the same. -/
theorem Expr.sameOptions_iff (as bs : List (Option Expr)) :
    Expr.sameOptions as bs = true ↔ as.map Option.isSome = bs.map Option.isSome ∧
      List.Forall₂ (fun a b => a.same b = true) (as.flatMap Option.toList)
        (bs.flatMap Option.toList) := by
  induction as generalizing bs with
  | nil => cases bs <;> simp [Expr.sameOptions]
  | cons a as ih =>
    cases bs with
    | nil => simp [Expr.sameOptions]
    | cons b bs =>
      cases a <;> cases b <;> simp [Expr.sameOptions, Expr.sameOption, ih, and_left_comm]

/-- **Equality by parts.**  Two trees are the same when their forms are equal and understood, their
labels agree and their parts are the same. -/
theorem Expr.same_iff (a b : Expr) :
    a.same b = true ↔ a.form = b.form ∧ a.form ≠ .unsupported ∧
      List.Forall₂ (fun x y => NameMode.significant.agree x y = true) a.labels b.labels ∧
      List.Forall₂ (fun a b => a.same b = true) a.parts b.parts := by
  -- Roots of different kinds have different forms, and such trees are never the same.
  cases a <;> cases b <;>
    try exact iff_of_false Bool.false_ne_true (fun h => Form.noConfusion h.1)
  case composite.composite t as u bs =>
    simp only [Expr.same, Bool.and_eq_true, Expr.sameOption_iff, Expr.sameList_iff, Expr.form,
      Expr.labels, Expr.parts, Form.composite.injEq, and_assoc]
    constructor
    · rintro ⟨h, ht, hes⟩
      exact ⟨h, by simp, .nil, List.rel_append ht hes⟩
    · rintro ⟨h, _, _, hes⟩
      have hl : t.toList.length = u.toList.length := by cases t <;> cases u <;> simp_all
      exact ⟨h, (forall₂_append_iff hl).mp hes⟩
  case sliceExpr.sliceExpr =>
    simp [Expr.same, Expr.sameOptions_iff, Expr.form, Expr.labels, Expr.parts, and_left_comm]
  case struct.struct fs gs =>
    simpa [Expr.same, Fields.same, Expr.form, Expr.labels, Expr.parts] using
      Fields.same_significant_iff fs gs
  case interface.interface fs gs =>
    simpa [Expr.same, Fields.same, Expr.form, Expr.labels, Expr.parts] using
      Fields.same_significant_iff fs gs
  all_goals
    simp [Expr.same, Expr.form, Expr.labels, Expr.parts, Expr.sameList_iff, Signature.same_iff,
      NameMode.agree, and_assoc]

/-! ## Induction -/

/-- All trees directly below a root, whether they are compared or not. -/
def Expr.children : Expr → List Expr
  | .selector e _ => [e]
  | e => e.parts

/-- What is compared below a root stands below it. -/
theorem Expr.mem_children_of_mem_parts {e c : Expr} (h : c ∈ e.parts) : c ∈ e.children := by
  cases e with
  | selector e x => simp [Expr.parts] at h
  | _ => exact h

/-- The types of a field list are smaller than the list. -/
theorem Fields.sizeOf_slotType_lt {fs : Fields} {t : Expr} (h : t ∈ Fields.slotTypes fs) :
    sizeOf t < sizeOf fs := by
  obtain ⟨f, hf, rfl⟩ := Fields.mem_slotTypes.mp h
  have hlt := List.sizeOf_lt_of_mem hf
  have htype : sizeOf f.type < sizeOf f := by
    cases f
    simp
    omega
  omega

/-- The types of a signature are smaller than it is. -/
theorem Signature.sizeOf_slotType_lt {s : Signature} {t : Expr} (h : t ∈ s.slotTypes) :
    sizeOf t < sizeOf s := by
  cases s with
  | mk ts ps rs =>
    simp only [Signature.slotTypes, List.mem_append] at h
    simp only [Signature.mk.sizeOf_spec]
    rcases h with (h | h) | h
    all_goals
      have hlt := Fields.sizeOf_slotType_lt h
      omega

/-- A tree directly below a root is smaller than the whole. -/
theorem Expr.sizeOf_child_lt {e c : Expr} (h : c ∈ e.children) : sizeOf c < sizeOf e := by
  cases e with
  | func s | funcLit s =>
    have hlt := Signature.sizeOf_slotType_lt (show c ∈ s.slotTypes from h)
    simp
    omega
  | struct fs | interface fs =>
    have hlt := Fields.sizeOf_slotType_lt (show c ∈ Fields.slotTypes fs from h)
    simp
    omega
  | index e es | call e es =>
    rcases List.mem_cons.mp h with rfl | h
    · simp
      omega
    · have hlt := List.sizeOf_lt_of_mem h
      simp
      omega
  | union es =>
    have hlt := List.sizeOf_lt_of_mem (show c ∈ es from h)
    simp
    omega
  | composite t es =>
    rcases List.mem_append.mp h with h | h
    · obtain rfl := Option.mem_toList.mp h
      simp
      omega
    · have hlt := List.sizeOf_lt_of_mem h
      simp
      omega
  | sliceExpr e bs =>
    rcases List.mem_cons.mp h with rfl | h
    · simp
      omega
    · obtain ⟨b, hb, hc⟩ := List.mem_flatMap.mp h
      obtain rfl := Option.mem_toList.mp hc
      have hlt := List.sizeOf_lt_of_mem hb
      simp at hlt ⊢
      omega
  | ident | lit | unsupported => simp [Expr.children, Expr.parts] at h
  | _ =>
    simp only [Expr.children, Expr.parts, List.mem_cons, List.not_mem_nil, or_false] at h
    rcases h with rfl | rfl <;> simp <;> omega

/-- Induction over a tree from what holds of all trees directly below. -/
@[elab_as_elim]
theorem Expr.childInduction {motive : Expr → Prop}
    (step : ∀ e : Expr, (∀ c ∈ e.children, motive c) → motive e) (e : Expr) : motive e :=
  step e fun c _ => Expr.childInduction step c
termination_by sizeOf e
decreasing_by exact Expr.sizeOf_child_lt ‹_›

/-- Induction over a tree from what holds of all that is compared directly below. -/
@[elab_as_elim]
theorem Expr.partInduction {motive : Expr → Prop}
    (step : ∀ e : Expr, (∀ c ∈ e.parts, motive c) → motive e) (e : Expr) : motive e := by
  induction e using Expr.childInduction with
  | step e ih => exact step e fun c hc => ih c (Expr.mem_children_of_mem_parts hc)

/-! ## Compared positions -/

/-- Comparing the first tree with another one looks at the second: it is the tree itself, or
stands below it at a place that is compared. -/
inductive Expr.Compares : Expr → Expr → Prop
  | root (e : Expr) : Expr.Compares e e
  | part {e c x : Expr} : c ∈ e.parts → Expr.Compares c x → Expr.Compares e x

/-- What is compared in a tree: its root, and what is compared in its parts. -/
theorem Expr.compares_iff {e x : Expr} :
    e.Compares x ↔ x = e ∨ ∃ c ∈ e.parts, c.Compares x := by
  constructor
  · rintro (_ | ⟨hc, hx⟩)
    · exact Or.inl rfl
    · exact Or.inr ⟨_, hc, hx⟩
  · rintro (rfl | ⟨c, hc, hx⟩)
    · exact .root x
    · exact .part hc hx

end GoSurface
