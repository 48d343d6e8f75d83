/-
# Laws of structural equality

A tree is the same as itself unless it has a part that is not understood.  Equality composes as
long as no reference that the two outer trees have resolved is left open in the middle one: an
open reference agrees with any binding of its name.

* `Expr.same_self_iff`: when a tree is the same as itself;
* `Expr.same_comm`: equality does not depend on the order of the two trees;
* `same_symmetric_and_reflexive`: both laws, for trees, signatures and field lists;
* `Expr.same_trans`: equality composes along `Expr.Chained` trees;
* `Fields.Grows`, `Expr.GrowsTo`: a struct whose slots are kept and may be followed by new ones.
-/
import GoSurface.Proofs.Parts

namespace GoSurface

/-! ## Identifiers -/

/-- Whether the declaration that an identifier stands for is known. -/
def Ident.isBound (x : Ident) : Bool :=
  x.binding.isSome

theorem Binding.same_refl (b : Binding) : b.same b = true := by
  simp [Binding.same]

/-- Agreement of bindings composes. -/
theorem Binding.same_trans {a b c : Binding} (hab : a.same b = true) (hbc : b.same c = true) :
    a.same c = true := by
  simp only [Binding.same, Bool.and_eq_true, Bool.or_eq_true, decide_eq_true_eq] at hab hbc ⊢
  obtain ⟨⟨hkind, hname⟩, hord⟩ := hab
  obtain ⟨⟨hkind', hname'⟩, hord'⟩ := hbc
  refine ⟨⟨hkind.trans hkind', hname.trans hname'⟩, ?_⟩
  rcases hord with h | h
  · exact Or.inl h
  · rcases hord' with h' | h'
    · exact Or.inl (hkind ▸ h')
    · exact Or.inr (h.trans h')

theorem Ident.same_refl (x : Ident) : x.same x = true := by
  obtain ⟨name, _ | b⟩ := x
  · simp [Ident.same]
  · simp [Ident.same, Binding.same_refl]

/-- Identifiers that are the same are spelled alike. -/
theorem Ident.name_eq_of_same {x y : Ident} (h : x.same y = true) : x.name = y.name := by
  simp only [Ident.same, Bool.and_eq_true, decide_eq_true_eq] at h
  exact h.1

/-- Identifiers compose unless the middle one is open while the outer two are not. -/
theorem Ident.same_trans {x y z : Ident} (hxy : x.same y = true) (hyz : y.same z = true)
    (h : x.isBound = true → z.isBound = true → y.isBound = true) : x.same z = true := by
  obtain ⟨n, _ | a⟩ := x <;> obtain ⟨m, _ | b⟩ := y <;> obtain ⟨k, _ | c⟩ := z
  case some.some.some =>
    simp only [Ident.same, Bool.and_eq_true, decide_eq_true_eq] at hxy hyz ⊢
    exact ⟨hxy.1.trans hyz.1, Binding.same_trans hxy.2 hyz.2⟩
  case some.none.some => simp [Ident.isBound] at h
  all_goals
    have hname := (Ident.name_eq_of_same hxy).trans (Ident.name_eq_of_same hyz)
    simpa [Ident.same] using hname

theorem NameMode.agree_refl (i : Option Ident) : NameMode.significant.agree i i = true := by
  cases i with
  | none => rfl
  | some x => exact Ident.same_refl x

/-- Labels compose under the condition on the identifiers in them. -/
theorem NameMode.agree_trans {i j k : Option Ident}
    (hij : NameMode.significant.agree i j = true) (hjk : NameMode.significant.agree j k = true)
    (h : ∀ x y z, i = some x → j = some y → k = some z → x.name = y.name → y.name = z.name →
      x.isBound = true → z.isBound = true → y.isBound = true) :
    NameMode.significant.agree i k = true := by
  cases i <;> cases j <;> cases k <;> try exact absurd hij Bool.false_ne_true
  case none.none.none => rfl
  case none.none.some => exact hjk
  case some.some.none => exact hjk
  case some.some.some x y z =>
    have hxy := Ident.name_eq_of_same hij
    have hyz := Ident.name_eq_of_same hjk
    exact Ident.same_trans hij hjk (h x y z rfl rfl rfl hxy hyz)

/-! ## Equality with itself -/

/-- The one form that is not understood is that of the unsupported trees. -/
theorem Expr.form_eq_unsupported_iff {e : Expr} :
    e.form = .unsupported ↔ ∃ kind, e = .unsupported kind := by
  cases e <;> simp [Expr.form]

/-- **Equality with itself.**  A tree is the same as itself exactly when comparing it meets no
form that is not understood. -/
theorem Expr.same_self_iff (e : Expr) :
    e.same e = true ↔ ∀ kind, ¬ e.Compares (.unsupported kind) := by
  induction e using Expr.partInduction with
  | step e ih =>
    rw [Expr.same_iff, List.forall₂_same, List.forall₂_same]
    constructor
    · rintro ⟨-, hform, -, hparts⟩ kind hcompares
      rcases Expr.compares_iff.mp hcompares with h | ⟨c, hc, hx⟩
      · exact hform (Expr.form_eq_unsupported_iff.mpr ⟨kind, h.symm⟩)
      · exact (ih c hc).mp (hparts c hc) kind hx
    · intro h
      refine ⟨rfl, ?_, fun i _ => NameMode.agree_refl i, ?_⟩
      · intro hform
        obtain ⟨kind, rfl⟩ := Expr.form_eq_unsupported_iff.mp hform
        exact h kind (.root _)
      · intro c hc
        exact (ih c hc).mpr fun kind hx => h kind (.part hc hx)

theorem Fields.same_self_iff (fs : Fields) :
    Fields.same .ignored fs fs = true ↔ ∀ t ∈ Fields.slotTypes fs, t.same t = true := by
  simp [Fields.same_ignored_iff, List.forall₂_same]

theorem Signature.same_self_iff (s : Signature) :
    s.same s = true ↔ ∀ t ∈ s.slotTypes, t.same t = true := by
  simp [Signature.same_iff, List.forall₂_same]

/-! ## The other way round -/

/-- Bindings agree in both directions. -/
theorem Binding.same_comm (a b : Binding) : a.same b = b.same a := by
  have hflip : ∀ {a b : Binding}, a.same b = true → b.same a = true := by
    intro a b h
    simp only [Binding.same, Bool.and_eq_true, Bool.or_eq_true, decide_eq_true_eq] at h ⊢
    obtain ⟨⟨hkind, hname⟩, hordinal⟩ := h
    exact ⟨⟨hkind.symm, hname.symm⟩, hordinal.imp (hkind ▸ ·) Eq.symm⟩
  exact Bool.eq_iff_iff.mpr ⟨hflip, hflip⟩

theorem Ident.same_comm (x y : Ident) : x.same y = y.same x := by
  obtain ⟨n, _ | a⟩ := x <;> obtain ⟨m, _ | b⟩ := y <;>
    simp [Ident.same, eq_comm, Binding.same_comm]

theorem NameMode.agree_comm (m : NameMode) (i j : Option Ident) : m.agree i j = m.agree j i := by
  cases m with
  | ignored => rfl
  | significant => cases i <;> cases j <;> simp [NameMode.agree, Ident.same_comm]

/-- **Symmetry.**  Whether two trees are the same does not depend on which comes first. -/
theorem Expr.same_comm (a b : Expr) : a.same b = b.same a := by
  induction a using Expr.partInduction generalizing b with
  | step a ih =>
    have hlabels : List.Forall₂ (fun x y => NameMode.significant.agree x y = true)
          a.labels b.labels ↔
        List.Forall₂ (fun x y => NameMode.significant.agree x y = true) b.labels a.labels :=
      forall₂_swap_iff fun x _ y _ => by rw [NameMode.agree_comm]
    have hparts : List.Forall₂ (fun c d => c.same d = true) a.parts b.parts ↔
        List.Forall₂ (fun c d => c.same d = true) b.parts a.parts :=
      forall₂_swap_iff fun c hc d _ => by rw [ih c hc d]
    rw [Bool.eq_iff_iff, Expr.same_iff, Expr.same_iff, hlabels, hparts]
    constructor
    · rintro ⟨hform, hknown, h⟩
      exact ⟨hform.symm, hform ▸ hknown, h⟩
    · rintro ⟨hform, hknown, h⟩
      exact ⟨hform.symm, hform ▸ hknown, h⟩

theorem Slot.same_comm (m : NameMode) (a b : Slot) : a.same m b = b.same m a := by
  rw [Slot.same, Slot.same, NameMode.agree_comm, Expr.same_comm, decide_eq_decide.mpr eq_comm]

theorem Fields.same_comm (m : NameMode) (fs gs : Fields) :
    Fields.same m fs gs = Fields.same m gs fs := by
  rw [Bool.eq_iff_iff, Fields.same_iff, Fields.same_iff]
  exact forall₂_swap_iff fun a _ b _ => by rw [Slot.same_comm]

/-- Signatures are the same in both directions. -/
theorem Signature.same_comm (s t : Signature) : s.same t = t.same s := by
  have htypes : List.Forall₂ (fun a b => a.same b = true) s.slotTypes t.slotTypes ↔
      List.Forall₂ (fun a b => a.same b = true) t.slotTypes s.slotTypes :=
    forall₂_swap_iff fun a _ b _ => by rw [Expr.same_comm]
  rw [Bool.eq_iff_iff, Signature.same_iff, Signature.same_iff, htypes]
  exact and_congr_left fun _ => eq_comm

/-- **Symmetry and reflexivity.**  Whether trees, signatures or field lists are the same, with names
that count or not, does not depend on which comes first; and a tree is the same as itself exactly
when it has nothing that is not understood, apart from what names are selected from. -/
theorem same_symmetric_and_reflexive :
    (∀ a b : Expr, a.same b = b.same a) ∧
    (∀ s t : Signature, s.same t = t.same s) ∧
    (∀ (m : NameMode) (fs gs : Fields), Fields.same m fs gs = Fields.same m gs fs) ∧
    ∀ e : Expr, e.same e = true ↔ ∀ kind, ¬ e.Compares (.unsupported kind) := by
  refine ⟨?_, ?_, ?_, ?_⟩
  · exact Expr.same_comm
  · exact Signature.same_comm
  · exact Fields.same_comm
  · exact Expr.same_self_iff

/-! ## Composition -/

/-- Three trees whose equalities compose: of the references spelled alike, those bound in the outer
trees are bound in the middle one, and the other names that count in the first tree are open, as
resolving leaves them. -/
structure Expr.Chained (a b c : Expr) : Prop where
  refs : ∀ x y z : Ident, a.Compares (.ident x) → b.Compares (.ident y) →
    c.Compares (.ident z) → x.name = y.name → y.name = z.name →
      x.isBound = true → z.isBound = true → y.isBound = true
  members : ∀ e : Expr, a.Compares e → e.form ≠ .ident → ∀ x, some x ∈ e.labels →
    x.isBound = false

theorem Expr.Chained.part {a b c x y z : Expr} (h : Expr.Chained a b c) (hx : x ∈ a.parts)
    (hy : y ∈ b.parts) (hz : z ∈ c.parts) : Expr.Chained x y z where
  refs i j k hi hj hk := h.refs i j k (.part hx hi) (.part hy hj) (.part hz hk)
  members e he := h.members e (.part hx he)

theorem Expr.exists_ident_of_form {e : Expr} (h : e.form = .ident) : ∃ x, e = .ident x := by
  cases e with
  | ident x => exact ⟨x, rfl⟩
  | _ => simp [Expr.form] at h

/-- The labels of chained roots compose. -/
theorem Expr.Chained.agree_trans {a b c : Expr} (h : Expr.Chained a b c)
    (hab : a.form = .ident → b.form = .ident) (hbc : b.form = .ident → c.form = .ident)
    {i j k : Option Ident} (hi : i ∈ a.labels) (hj : j ∈ b.labels) (hk : k ∈ c.labels)
    (hij : NameMode.significant.agree i j = true) (hjk : NameMode.significant.agree j k = true) :
    NameMode.significant.agree i k = true := by
  apply NameMode.agree_trans hij hjk
  rintro x y z rfl rfl rfl hxy hyz hx hz
  by_cases hform : a.form = .ident
  · obtain ⟨x', rfl⟩ := Expr.exists_ident_of_form hform
    obtain ⟨y', rfl⟩ := Expr.exists_ident_of_form (hab hform)
    obtain ⟨z', rfl⟩ := Expr.exists_ident_of_form (hbc (hab hform))
    simp only [Expr.labels, List.mem_singleton, Option.some.injEq] at hi hj hk
    subst hi hj hk
    exact h.refs x y z (.root _) (.root _) (.root _) hxy hyz hx hz
  · -- The names of members are open in the first tree.
    rw [h.members a (.root a) hform x hi] at hx
    exact absurd hx Bool.false_ne_true

/-- **Composition.**  Along chained trees, equality is transitive. -/
theorem Expr.same_trans {a b c : Expr} (h : Expr.Chained a b c) (hab : a.same b = true)
    (hbc : b.same c = true) : a.same c = true := by
  induction a using Expr.partInduction generalizing b c with
  | step a ih =>
    rw [Expr.same_iff] at hab hbc ⊢
    obtain ⟨hform, hknown, hlabels, hparts⟩ := hab
    obtain ⟨hform', -, hlabels', hparts'⟩ := hbc
    refine ⟨hform.trans hform', hknown, ?_, ?_⟩
    · refine forall₂_trans ?_ hlabels hlabels'
      intro i hi j hj k hk
      exact h.agree_trans (fun ha => hform ▸ ha) (fun hb => hform' ▸ hb) hi hj hk
    · refine forall₂_trans ?_ hparts hparts'
      intro x hx y hy z hz hxy hyz
      exact ih x hx (h.part hx hy hz) hxy hyz

/-- Rows of trees compose along chained entries. -/
theorem Expr.same_rows_trans {as bs cs : List Expr}
    (h : ∀ a ∈ as, ∀ b ∈ bs, ∀ c ∈ cs, Expr.Chained a b c)
    (hab : List.Forall₂ (fun a b => a.same b = true) as bs)
    (hbc : List.Forall₂ (fun b c => b.same c = true) bs cs) :
    List.Forall₂ (fun a c => a.same c = true) as cs := by
  refine forall₂_trans ?_ hab hbc
  intro a ha b hb c hc
  exact Expr.same_trans (h a ha b hb c hc)

/-- Field lists whose names do not count compose along chained types. -/
theorem Fields.same_trans {fs gs hs : Fields}
    (h : ∀ a ∈ Fields.slotTypes fs, ∀ b ∈ Fields.slotTypes gs, ∀ c ∈ Fields.slotTypes hs,
      Expr.Chained a b c)
    (hfg : Fields.same .ignored fs gs = true) (hgh : Fields.same .ignored gs hs = true) :
    Fields.same .ignored fs hs = true := by
  rw [Fields.same_ignored_iff] at hfg hgh ⊢
  exact ⟨hfg.1.trans hgh.1, Expr.same_rows_trans h hfg.2 hgh.2⟩

/-- Signatures compose along chained types. -/
theorem Signature.same_trans {s t u : Signature}
    (h : ∀ a ∈ s.slotTypes, ∀ b ∈ t.slotTypes, ∀ c ∈ u.slotTypes, Expr.Chained a b c)
    (hst : s.same t = true) (htu : t.same u = true) : s.same u = true := by
  rw [Signature.same_iff] at hst htu ⊢
  exact ⟨hst.1.trans htu.1, Expr.same_rows_trans h hst.2 htu.2⟩

/-! ## Growth -/

/-- The slots of the first list are kept, in place, and may be followed by others. -/
def Fields.Grows (fs gs : Fields) : Prop :=
  ∃ kept new, Fields.slots gs = kept ++ new ∧
    List.Forall₂ (fun a b => a.same .significant b = true) (Fields.slots fs) kept

/-- A list grows when it stays the same or when slots are appended. -/
theorem Fields.grows_iff (fs gs : Fields) :
    Fields.Grows fs gs ↔
      Fields.same .significant fs gs = true ∨ Fields.extendedBy fs gs = true := by
  rw [Fields.same_iff, Fields.extendedBy, Bool.and_eq_true, decide_eq_true_eq,
    Fields.sameSlots_iff]
  constructor
  · rintro ⟨kept, new, hslots, hkept⟩
    have hlen := hkept.length_eq
    cases new with
    | nil =>
      rw [List.append_nil] at hslots
      exact Or.inl (hslots ▸ hkept)
    | cons s new =>
      right
      rw [hslots, hlen, List.take_left]
      exact ⟨by simp, hkept⟩
  · rintro (hsame | ⟨-, hkept⟩)
    · exact ⟨Fields.slots gs, [], by simp, hsame⟩
    · exact ⟨_, (Fields.slots gs).drop (Fields.slots fs).length, by simp, hkept⟩

/-- The second type is the same as the first, or both are structs and the first one grows into the
second. -/
def Expr.GrowsTo (a b : Expr) : Prop :=
  a.same b = true ∨ ∃ fs gs, a = .struct fs ∧ b = .struct gs ∧ Fields.Grows fs gs

/-- Only a struct is the same as a struct, and it has grown by nothing. -/
theorem Expr.GrowsTo.struct {fs : Fields} {b : Expr} (h : (Expr.struct fs).GrowsTo b) :
    ∃ gs, b = .struct gs ∧ Fields.Grows fs gs := by
  rcases h with h | ⟨_, gs, hfs, hb, hgrows⟩
  · cases b with
    | struct gs => exact ⟨gs, rfl, (Fields.grows_iff fs gs).mpr (Or.inl h)⟩
    | _ => exact absurd h Bool.false_ne_true
  · obtain rfl := Expr.struct.inj hfs
    exact ⟨gs, hb, hgrows⟩

/-- The slots of chained structs compose. -/
theorem Slot.same_trans {fs gs hs : Fields}
    (h : Expr.Chained (.struct fs) (.struct gs) (.struct hs)) {a b c : Slot}
    (ha : a ∈ Fields.slots fs) (hb : b ∈ Fields.slots gs) (hc : c ∈ Fields.slots hs)
    (hab : a.same .significant b = true) (hbc : b.same .significant c = true) :
    a.same .significant c = true := by
  simp only [Slot.same, Bool.and_eq_true, decide_eq_true_eq] at hab hbc ⊢
  obtain ⟨⟨hname, htag⟩, htype⟩ := hab
  obtain ⟨⟨hname', htag'⟩, htype'⟩ := hbc
  refine ⟨⟨?_, htag.trans htag'⟩, ?_⟩
  · exact h.agree_trans (fun ha => by cases ha) (fun hb => by cases hb) (List.mem_map_of_mem ha) (List.mem_map_of_mem hb)
      (List.mem_map_of_mem hc) hname hname'
  · exact Expr.same_trans (h.part (List.mem_map_of_mem ha) (List.mem_map_of_mem hb)
      (List.mem_map_of_mem hc)) htype htype'

/-- Growth of chained structs composes. -/
theorem Fields.Grows.trans {fs gs hs : Fields}
    (h : Expr.Chained (.struct fs) (.struct gs) (.struct hs)) (hfg : Fields.Grows fs gs)
    (hgh : Fields.Grows gs hs) : Fields.Grows fs hs := by
  obtain ⟨kept, new, hslots, hkept⟩ := hfg
  obtain ⟨kept', new', hslots', hkept'⟩ := hgh
  -- The slots kept twice are the first ones among those kept in the second step.
  rw [hslots] at hkept'
  obtain ⟨l, r, hl, hr, rfl⟩ : ∃ l r, List.Forall₂ (fun a b => a.same .significant b = true) kept l ∧
      List.Forall₂ (fun a b => a.same .significant b = true) new r ∧ kept' = l ++ r := by
    have hlen : kept.length = (kept'.take kept.length).length := by
      rw [List.length_take, ← hkept'.length_eq]
      simp
    have hsplit := hkept'
    rw [← List.take_append_drop kept.length kept', forall₂_append_iff hlen] at hsplit
    exact ⟨_, _, hsplit.1, hsplit.2, (List.take_append_drop _ _).symm⟩
  refine ⟨l, r ++ new', by rw [hslots', List.append_assoc], forall₂_trans ?_ hkept hl⟩
  intro a ha b hb c hc
  exact Slot.same_trans h ha (by simp [hslots, hb]) (by simp [hslots', hc])

/-- Growth of types composes along chained types. -/
theorem Expr.GrowsTo.trans {a b c : Expr} (h : Expr.Chained a b c) (hab : a.GrowsTo b)
    (hbc : b.GrowsTo c) : a.GrowsTo c := by
  by_cases hstruct : ∃ fs, a = .struct fs
  · obtain ⟨fs, rfl⟩ := hstruct
    obtain ⟨gs, rfl, hfg⟩ := hab.struct
    obtain ⟨hs, rfl, hgh⟩ := hbc.struct
    exact Or.inr ⟨fs, hs, rfl, rfl, hfg.trans h hgh⟩
  · rcases hab with hab | ⟨fs, _, rfl, _⟩
    · rcases hbc with hbc | ⟨gs, _, rfl, _⟩
      · exact Or.inl (Expr.same_trans h hab hbc)
      · cases a with
        | struct fs => exact absurd ⟨fs, rfl⟩ hstruct
        | _ => exact absurd hab Bool.false_ne_true
    · exact absurd ⟨fs, rfl⟩ hstruct

end GoSurface
