/-
# Structural equality

When a type or an expression of one revision means the same as one of another.  Names of
parameters are decoration, names of struct fields and methods are not; a selected name stands for
its whole path; a form that is not understood is never equal to anything.

* `Expr.same`, `Signature.same`: equality of trees;
* `Fields.same`: equality of field lists, slot by slot;
* `Fields.extendedBy`: the second list is the first with slots appended.
-/
import GoSurface.Syntax.Expr

namespace GoSurface

/-! ## Slots -/

/-- Whether the names of slots count. -/
inductive NameMode where
  | ignored
  | significant
deriving DecidableEq

/-- Names of slots agree when they do not count, are both absent, or are the same. -/
def NameMode.agree : NameMode → Option Ident → Option Ident → Bool
  | .ignored, _, _ => true
  | .significant, none, none => true
  | .significant, some x, some y => x.same y
  | .significant, _, _ => false

/-! ## Trees -/

mutual

/-- Two trees have the same form and the same parts. -/
def Expr.same : Expr → Expr → Bool
  | .ident x, e => match e with
    | .ident y => x.same y
    | _ => false
  | .lit l, e => match e with
    | .lit k => l = k
    | _ => false
  | .ellipsis a, e => match e with
    | .ellipsis b => a.same b
    | _ => false
  | .pointer a, e => match e with
    | .pointer b => a.same b
    | _ => false
  | .slice a, e => match e with
    | .slice b => a.same b
    | _ => false
  | .paren a, e => match e with
    | .paren b => a.same b
    | _ => false
  | .tilde a, e => match e with
    | .tilde b => a.same b
    | _ => false
  | .array n a, e => match e with
    | .array m b => n.same m && a.same b
    | _ => false
  | .map k v, e => match e with
    | .map l w => k.same l && v.same w
    | _ => false
  | .chan d a, e => match e with
    | .chan c b => d = c && a.same b
    | _ => false
  | .func s, e => match e with
    | .func t => s.same t
    | _ => false
  | .struct fs, e => match e with
    | .struct gs => Fields.sameSlots .significant fs (Fields.slots gs)
    | _ => false
  | .interface fs, e => match e with
    | .interface gs => Fields.sameSlots .significant fs (Fields.slots gs)
    | _ => false
  | .selector _ x, e => match e with
    | .selector _ y => x.same y
    | _ => false
  | .index a as, e => match e with
    | .index b bs => a.same b && Expr.sameList as bs
    | _ => false
  | .union as, e => match e with
    | .union bs => Expr.sameList as bs
    | _ => false
  | .call a as, e => match e with
    | .call b bs => a.same b && Expr.sameList as bs
    | _ => false
  | .binary op l r, e => match e with
    | .binary op' l' r' => op = op' && l.same l' && r.same r'
    | _ => false
  | .unary op a, e => match e with
    | .unary op' b => op = op' && a.same b
    | _ => false
  | .keyValue k v, e => match e with
    | .keyValue l w => k.same l && v.same w
    | _ => false
  | .composite t as, e => match e with
    | .composite u bs => Expr.sameOption t u && Expr.sameList as bs
    | _ => false
  | .funcLit s, e => match e with
    | .funcLit t => s.same t
    | _ => false
  | .sliceExpr a as, e => match e with
    | .sliceExpr b bs => a.same b && Expr.sameOptions as bs
    | _ => false
  | .typeAssert a t, e => match e with
    | .typeAssert b u => a.same b && t.same u
    | _ => false
  | .unsupported _, _ => false
termination_by structural a => a

/-- Rows of trees are of one length and agree position by position. -/
def Expr.sameList : List Expr → List Expr → Bool
  | [], bs => bs.isEmpty
  | a :: as, bs => match bs with
    | b :: bs => a.same b && Expr.sameList as bs
    | [] => false
termination_by structural as => as

/-- Both trees are absent, or both are present and the same. -/
def Expr.sameOption : Option Expr → Option Expr → Bool
  | none, b => b.isNone
  | some a, b => match b with
    | some b => a.same b
    | none => false
termination_by structural a => a

/-- Rows of trees that may be absent agree position by position. -/
def Expr.sameOptions : List (Option Expr) → List (Option Expr) → Bool
  | [], bs => bs.isEmpty
  | a :: as, bs => match bs with
    | b :: bs => Expr.sameOption a b && Expr.sameOptions as bs
    | [] => false
termination_by structural as => as

/-- The slots of one field agree with a row of slots of the same length. -/
def Field.sameSlots (m : NameMode) : Field → List Slot → Bool
  | ⟨xs, t, tag⟩, ss =>
    (slotNames xs).length = ss.length &&
      ((slotNames xs).zip ss).all fun (x, s) => m.agree x s.name && tag = s.tag && t.same s.type
termination_by structural f => f

/-- The slots of a field list agree with a row of slots. -/
def Fields.sameSlots (m : NameMode) : List Field → List Slot → Bool
  | [], ss => ss.isEmpty
  | f :: fs, ss =>
    f.sameSlots m (ss.take f.slots.length) && Fields.sameSlots m fs (ss.drop f.slots.length)
termination_by structural fs => fs

/-- Signatures agree when their three lists do, names apart. -/
def Signature.same : Signature → Signature → Bool
  | ⟨ts, ps, rs⟩, s =>
    Fields.sameSlots .ignored ts (Fields.slots s.typeParams) &&
      Fields.sameSlots .ignored ps (Fields.slots s.params) &&
      Fields.sameSlots .ignored rs (Fields.slots s.results)
termination_by structural s => s

end

/-! ## Field lists -/

/-- Two slots agree in type and tag, and in name if names count. -/
def Slot.same (m : NameMode) (a b : Slot) : Bool :=
  m.agree a.name b.name && a.tag = b.tag && a.type.same b.type

/-- Two field lists have the same number of slots and agree slot by slot. -/
def Fields.same (m : NameMode) (fs gs : Fields) : Bool :=
  Fields.sameSlots m fs (Fields.slots gs)

/-- The second list has more slots, and its first ones are those of the first list. -/
def Fields.extendedBy (fs gs : Fields) : Bool :=
  (Fields.slots fs).length < (Fields.slots gs).length &&
    Fields.sameSlots .significant fs ((Fields.slots gs).take (Fields.slots fs).length)

/-- A field's slots agree with a row of slots when they do pairwise. -/
theorem Field.sameSlots_eq (m : NameMode) (f : Field) (ss : List Slot) :
    f.sameSlots m ss =
      (decide (f.slots.length = ss.length) && (f.slots.zip ss).all fun (a, b) => a.same m b) := by
  cases f with
  | mk xs t tag =>
    simp only [Field.sameSlots, Field.slots, List.length_map, List.zip_map_left, List.all_map]
    rfl

/-- A field list agrees with a row of slots when its slots do pairwise. -/
theorem Fields.sameSlots_eq (m : NameMode) (fs : Fields) (ss : List Slot) :
    Fields.sameSlots m fs ss =
      (decide ((Fields.slots fs).length = ss.length) &&
        ((Fields.slots fs).zip ss).all fun (a, b) => a.same m b) := by
  induction fs generalizing ss with
  | nil => cases ss <;> simp [Fields.sameSlots]
  | cons f fs ih =>
    rw [Fields.sameSlots, ih, Field.sameSlots_eq]
    by_cases h : f.slots.length ≤ ss.length
    · obtain ⟨left, right, rfl, hl⟩ : ∃ left right, ss = left ++ right ∧
          left.length = f.slots.length :=
        ⟨ss.take f.slots.length, ss.drop f.slots.length, by simp, by simp [h]⟩
      have hz : (f.slots ++ Fields.slots fs).zip (left ++ right) =
          f.slots.zip left ++ (Fields.slots fs).zip right := List.zip_append hl.symm
      rw [← hl, List.take_left, List.drop_left, Fields.slots_cons, hz]
      simp only [List.length_append, List.all_append, hl]
      rw [Bool.eq_iff_iff]
      simp only [Bool.and_eq_true, decide_eq_true_eq]
      constructor
      · rintro ⟨⟨_, h₁⟩, h₂, h₃⟩
        exact ⟨by omega, h₁, h₃⟩
      · rintro ⟨h₁, h₂, h₃⟩
        exact ⟨⟨trivial, h₂⟩, by omega, h₃⟩
    · have hlt : ss.length < f.slots.length := by omega
      have h₁ : ¬ f.slots.length = (ss.take f.slots.length).length := by
        rw [List.length_take]
        omega
      have h₂ : ¬ (Fields.slots (f :: fs)).length = ss.length := by
        rw [Fields.slots_cons, List.length_append]
        omega
      rw [decide_eq_false h₁, decide_eq_false h₂]
      rfl

end GoSurface
