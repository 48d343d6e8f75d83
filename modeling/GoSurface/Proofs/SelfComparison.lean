/-
# A package compared with itself

A package differs from itself in two cases only: a key that is declared more than once, of which
one declaration goes without a partner, and a tree that is not understood where trees are compared.

* `comparePackages_eq_nil_iff`: a diff without changes is a diff that is at most a patch;
* `comparePackages_self_eq_nil_iff`: when a package has no changes against itself.
-/
import GoSurface.Proofs.Surface

namespace GoSurface

/-! ## Diffs without changes -/

/-- A change of constants or variables is as severe as its reason. -/
theorem severity_of_valueChange {x : Pair ValueSpec} {c : Change} (h : valueChange x = some c) :
    c.severity = c.reason.severity := by
  cases x with
  | added l => exact Option.some.inj h ▸ rfl
  | removed p => exact Option.some.inj h ▸ rfl
  | both p l =>
    rw [valueChange] at h
    split at h
    · cases h
    · exact Option.some.inj h ▸ rfl

/-- A change of a function is as severe as its reason. -/
theorem severity_of_funcChange {x : Pair FuncDecl} {c : Change} (h : funcChange x = some c) :
    c.severity = c.reason.severity := by
  cases x with
  | added l => exact Option.some.inj h ▸ rfl
  | removed p =>
    rw [funcChange] at h
    split at h
    · cases h
    · exact Option.some.inj h ▸ rfl
  | both p l =>
    rw [funcChange_both] at h
    obtain ⟨reason, -, hc⟩ := Option.map_eq_some_iff.mp h
    exact hc ▸ rfl

/-- A change of a type is as severe as its reason. -/
theorem severity_of_typeChange {previous latest : Option Package} {x : Pair TypeSpec} {c : Change}
    (h : typeChange previous latest x = some c) : c.severity = c.reason.severity := by
  cases x with
  | added l => exact Option.some.inj h ▸ rfl
  | removed p => exact Option.some.inj h ▸ rfl
  | both p l =>
    cases previous with
    | none => cases h
    | some previous =>
      cases latest with
      | none => cases h
      | some latest =>
        rw [typeChange_both] at h
        obtain ⟨reason, -, hc⟩ := Option.map_eq_some_iff.mp h
        exact hc ▸ rfl

/-- A change is as severe as its reason. -/
theorem severity_eq_of_mem_comparePackages {previous latest : Option Package} {c : Change}
    (h : c ∈ comparePackages previous latest) : c.severity = c.reason.severity := by
  simp only [comparePackages, List.mem_append] at h
  rcases h with ((h | h) | h) | h
  · unfold diffPresence at h
    split at h
    · rw [List.mem_singleton.mp h]
      rfl
    · rw [List.mem_singleton.mp h]
      rfl
    · exact absurd h List.not_mem_nil
  · obtain ⟨x, -, hx⟩ := List.mem_filterMap.mp h
    exact severity_of_valueChange hx
  · obtain ⟨x, -, hx⟩ := List.mem_filterMap.mp h
    exact severity_of_funcChange hx
  · obtain ⟨x, -, hx⟩ := List.mem_filterMap.mp h
    exact severity_of_typeChange hx

/-- There are no changes exactly when the severity is that of a patch. -/
theorem comparePackages_eq_nil_iff (previous latest : Option Package) :
    comparePackages previous latest = [] ↔
      Diff.severity (comparePackages previous latest) ≤ .patch := by
  constructor
  · intro h
    rw [h, Diff.severity_nil]
  · intro h
    refine List.eq_nil_iff_forall_not_mem.mpr ?_
    intro c hc
    have hpatch := Diff.severity_le_iff.mp h c hc
    rw [severity_eq_of_mem_comparePackages hc, Severity.le_patch_iff] at hpatch
    exact Reason.severity_ne_patch c.reason hpatch

/-! ## Declarations compared with themselves -/

/-- Constants and variables are unchanged against themselves when their compared trees are. -/
theorem ValueSpec.difference?_self_iff (v : ValueSpec) :
    v.difference? v = none ↔ ∀ e ∈ v.comparedTrees, e.same e = true := by
  have hnames : sameNames v.names v.names = true :=
    sameNames_iff.mpr (List.forall₂_same.mpr fun x _ => Ident.same_refl x)
  rw [ValueSpec.difference?_eq_none_iff, ValueSpec.same, hnames, Bool.true_and,
    Bool.and_eq_true, Expr.sameOption_iff, Expr.sameList_iff, List.forall₂_same,
    List.forall₂_same, ValueSpec.comparedTrees, List.forall_mem_append]
  simp

/-- Receivers are the same as themselves when their types are. -/
theorem sameReceivers_self_iff (recv : Option Fields) :
    sameReceivers recv recv = true ↔
      ∀ e ∈ Fields.slotTypes (recv.getD []), e.same e = true := by
  cases recv with
  | none => simp [sameReceivers, Fields.slotTypes]
  | some fs => exact Fields.same_self_iff fs

theorem FuncDecl.difference?_self_iff (f : FuncDecl) :
    f.difference? f = none ↔ ∀ e ∈ f.comparedTrees, e.same e = true := by
  rw [FuncDecl.difference?_eq_none_iff, sameReceivers_self_iff, Signature.same_self_iff,
    FuncDecl.comparedTrees, List.forall_mem_append]

/-- A type is unchanged against itself when its compared trees are. -/
theorem TypeSpec.difference?_self_iff (p : Package) (t : TypeSpec) :
    t.difference? p t p = none ↔ ∀ e ∈ t.comparedTrees p, e.same e = true := by
  rw [TypeSpec.difference?_eq_none_iff, Fields.same_self_iff, TypeSpec.comparedTrees,
    List.forall_mem_append, List.forall_mem_singleton]
  simp [TypeSpec.namesAgree, Ident.same_refl]

/-! ## Packages compared with themselves -/

/-- **A package against itself.**  There are no changes exactly when within each kind the keys of
the extracted declarations are distinct, and nothing that is not understood stands at a compared
position of an extracted declaration. -/
theorem comparePackages_self_eq_nil_iff (P : Package) :
    comparePackages (some P) (some P) = [] ↔
      P.KeysDistinct ∧ ∀ d ∈ P.surface, ∀ e ∈ d.comparedTrees P, ∀ kind,
        ¬ e.Compares (.unsupported kind) := by
  rw [comparePackages_eq_nil_iff, severity_comparePackages_le_iff, diffValues, diffFunctions,
    diffTypes, valueChange_judges.self_le_patch_iff, funcChange_judges.self_le_patch_iff,
    (typeChange_judges P P).self_le_patch_iff, Package.keysDistinct_iff]
  simp only [judgement_le_patch_iff, ValueSpec.difference?_self_iff,
    FuncDecl.difference?_self_iff, TypeSpec.difference?_self_iff, Expr.same_self_iff]
  simp only [exportedValues_some, exportedFuncs_some, exportedTypes_some,
    Decl.isKind_value.mem_filterMap, Decl.isKind_func.mem_filterMap, Decl.isKind_type.mem_filterMap]
  constructor
  · rintro ⟨⟨hvalues, hv⟩, ⟨hfuncs, hf⟩, htypes, ht⟩
    refine ⟨⟨hvalues, hfuncs, htypes⟩, ?_⟩
    rintro (f | t | v) hd
    · exact hf f hd
    · exact ht t hd
    · exact hv v hd
  · rintro ⟨⟨hvalues, hfuncs, htypes⟩, hall⟩
    exact ⟨⟨hvalues, fun v hv => hall _ hv⟩, ⟨hfuncs, fun f hf => hall _ hf⟩, htypes,
      fun t ht => hall _ ht⟩

end GoSurface
