/-
# The surface of a package

The declarations that a comparison extracts from a package, of all kinds in one list, with the key
that each is paired by, the trees that are compared in it, and what it means for a declaration of a
later revision to be compatible with it.

* `Package.surface`, `Decl.key`: the extracted declarations and their keys;
* `Decl.IsKind`: what constants and variables, functions, and types have in common as kinds;
* `Package.reachable`: those that are not methods of an unexported type;
* `Decl.comparedTrees`: the trees of a declaration that are compared;
* `Decl.Compatible`: when a later declaration serves those who use an earlier one;
* `valueChange_judges`, `funcChange_judges`, `typeChange_judges`: the severity of each kind of
  change.
-/
import GoSurface.Compare.Packages
import GoSurface.Proofs.Equality
import GoSurface.Proofs.Severity

namespace GoSurface

/-! ## Extracted declarations -/

/-- What identifies a declaration: its kind, with the names and kind of constants or variables, the
name and receiver base of a function, or the name of a type. -/
inductive DeclKey where
  | value (key : ValueKind × List String)
  | func (key : String × Option String)
  | type (name : String)
deriving DecidableEq

/-- The key of a declaration. -/
def Decl.key : Decl → DeclKey
  | .value v => .value v.key
  | .func f => .func f.key
  | .type t => .type t.key

/-- Whether a declaration is extracted: types and functions with an exported name, and constants
or variables all of whose names are exported. -/
def Decl.isExported : Decl → Bool
  | .value v => v.names.all Ident.isExported
  | .func f => f.name.isExported
  | .type t => t.name.isExported

/-- Whether a declaration is a method of an unexported type. -/
def Decl.isHidden : Decl → Bool
  | .func f => f.isHidden
  | _ => false

/-- The extracted declarations of a package. -/
def Package.surface (p : Package) : List Decl :=
  p.decls.filter Decl.isExported

/-- The extracted declarations other than methods of unexported types. -/
def Package.reachable (p : Package) : List Decl :=
  p.surface.filter fun d => !d.isHidden

/-- Within each kind, the keys of the extracted declarations are pairwise distinct. -/
def Package.KeysDistinct (p : Package) : Prop :=
  (p.surface.map Decl.key).Nodup

instance (p : Package) : Decidable p.KeysDistinct :=
  inferInstanceAs (Decidable (List.Nodup _))

/-- Choosing after selecting is selecting after choosing. -/
theorem filterMap_filter_comm {α β : Type} {f : α → Option β} {p : α → Bool} {q : β → Bool}
    (h : ∀ a b, f a = some b → q b = p a) (xs : List α) :
    (xs.filterMap f).filter q = (xs.filter p).filterMap f := by
  induction xs with
  | nil => rfl
  | cons x xs ih =>
    cases hx : f x with
    | none => cases hp : p x <;> simp [hx, hp, ih]
    | some b =>
      have hq := h x b hx
      cases hp : p x <;> simp [hx, hp, hq, ih]

/-! ## Kinds of declarations -/

/-- One kind of declarations: `choose` picks out those that `wrap` makes, their keys are the ones
that `embed` gives, and `exported` says which of them are extracted. -/
structure Decl.IsKind {β ι : Type} (choose : Decl → Option β) (wrap : β → Decl) (subkey : β → ι)
    (embed : ι → DeclKey) (exported : β → Bool) : Prop where
  choose_eq_some_iff : ∀ {d b}, choose d = some b ↔ d = wrap b
  injective : Function.Injective embed
  exists_of_key : ∀ {d k}, d.key = embed k → ∃ b, d = wrap b ∧ subkey b = k
  key_wrap : ∀ b, (wrap b).key = embed (subkey b)
  isExported_wrap : ∀ b, (wrap b).isExported = exported b

/-- Constants and variables. -/
theorem Decl.isKind_value :
    IsKind value? value ValueSpec.key .value fun v => v.names.all Ident.isExported := by
  refine ⟨?_, fun _ _ => DeclKey.value.inj, ?_, fun _ => rfl, fun _ => rfl⟩
  · rintro (_ | _ | _) _ <;> simp [value?]
  · rintro (_ | _ | v) k ⟨⟩
    exact ⟨v, rfl, rfl⟩

/-- Functions and methods. -/
theorem Decl.isKind_func :
    IsKind func? func FuncDecl.key .func fun f => f.name.isExported := by
  refine ⟨?_, fun _ _ => DeclKey.func.inj, ?_, fun _ => rfl, fun _ => rfl⟩
  · rintro (_ | _ | _) _ <;> simp [func?]
  · rintro (f | _ | _) k ⟨⟩
    exact ⟨f, rfl, rfl⟩

/-- Types. -/
theorem Decl.isKind_type :
    IsKind type? type TypeSpec.key .type fun t => t.name.isExported := by
  refine ⟨?_, fun _ _ => DeclKey.type.inj, ?_, fun _ => rfl, fun _ => rfl⟩
  · rintro (_ | _ | _) _ <;> simp [type?]
  · rintro (_ | t | _) k ⟨⟩
    exact ⟨t, rfl, rfl⟩

namespace Decl.IsKind

variable {β ι : Type} {choose : Decl → Option β} {wrap : β → Decl} {subkey : β → ι}
  {embed : ι → DeclKey} {exported : β → Bool}

theorem mem_filterMap (h : IsKind choose wrap subkey embed exported) {ds : List Decl} {b : β} :
    b ∈ ds.filterMap choose ↔ wrap b ∈ ds := by
  simp [List.mem_filterMap, h.choose_eq_some_iff]

/-- The extracted declarations of a kind. -/
theorem filter_exported (h : IsKind choose wrap subkey embed exported) (p : Package) :
    (p.decls.filterMap choose).filter exported = p.surface.filterMap choose := by
  refine filterMap_filter_comm ?_ p.decls
  intro d b hb
  rw [h.choose_eq_some_iff.mp hb, h.isExported_wrap]

end Decl.IsKind

theorem exportedValues_some (p : Package) :
    exportedValues (some p) = p.surface.filterMap Decl.value? :=
  Decl.isKind_value.filter_exported p

theorem exportedFuncs_some (p : Package) :
    exportedFuncs (some p) = p.surface.filterMap Decl.func? :=
  Decl.isKind_func.filter_exported p

theorem exportedTypes_some (p : Package) :
    exportedTypes (some p) = p.surface.filterMap Decl.type? :=
  Decl.isKind_type.filter_exported p

/-! ## Distinct keys -/

/-- What holds of declarations with different keys, and of every two of one kind in a list, holds
of every two of the list. -/
theorem pairwise_of_kinds {R : Decl → Decl → Prop} {ds : List Decl}
    (hkeys : ∀ d e, d.key ≠ e.key → R d e)
    (hvalues : (ds.filterMap Decl.value?).Pairwise fun v w => R (.value v) (.value w))
    (hfuncs : (ds.filterMap Decl.func?).Pairwise fun f g => R (.func f) (.func g))
    (htypes : (ds.filterMap Decl.type?).Pairwise fun t u => R (.type t) (.type u)) :
    ds.Pairwise R := by
  rw [List.pairwise_filterMap] at hvalues hfuncs htypes
  refine (hvalues.and (hfuncs.and htypes)).imp ?_
  rintro (f | t | v) (g | u | w) ⟨hvalue, hfunc, htype⟩
  case func.func => exact hfunc f rfl g rfl
  case type.type => exact htype t rfl u rfl
  case value.value => exact hvalue v rfl w rfl
  all_goals exact hkeys _ _ (by simp [Decl.key])

/-- Keys are distinct when they are within each kind. -/
theorem Package.keysDistinct_iff (p : Package) :
    p.KeysDistinct ↔ ((exportedValues (some p)).map ValueSpec.key).Nodup ∧
      ((exportedFuncs (some p)).map FuncDecl.key).Nodup ∧
      ((exportedTypes (some p)).map TypeSpec.key).Nodup := by
  rw [exportedValues_some, exportedFuncs_some, exportedTypes_some, Package.KeysDistinct]
  simp only [List.Nodup, List.pairwise_map]
  constructor
  · intro h
    refine ⟨?_, ?_, ?_⟩
    all_goals
      rw [List.pairwise_filterMap]
      refine h.imp ?_
      rintro (_ | _ | _) (_ | _ | _) hne _ ⟨⟩ _ ⟨⟩ hkey
      exact hne (by simp only [Decl.key, hkey])
  · rintro ⟨hvalues, hfuncs, htypes⟩
    refine pairwise_of_kinds (fun _ _ hne => hne) ?_ ?_ ?_
    · exact hvalues.imp fun hne hkey => hne (DeclKey.value.inj hkey)
    · exact hfuncs.imp fun hne hkey => hne (DeclKey.func.inj hkey)
    · exact htypes.imp fun hne hkey => hne (DeclKey.type.inj hkey)

/-! ## Compared trees -/

/-- The trees of a function that are compared: the types of receivers, type parameters, parameters
and results. -/
def FuncDecl.comparedTrees (f : FuncDecl) : List Expr :=
  Fields.slotTypes (f.recv.getD []) ++ f.sig.slotTypes

/-- The trees of constants or variables that are compared: their type and values. -/
def ValueSpec.comparedTrees (v : ValueSpec) : List Expr :=
  v.type.toList ++ v.values

/-- The trees of a type that are compared: the constraints of the type parameters and the visible
part of the type that it stands for. -/
def TypeSpec.comparedTrees (p : Package) (t : TypeSpec) : List Expr :=
  Fields.slotTypes (p.follow t).typeParams ++ [(p.follow t).type.exportedOnly]

/-- The trees of a declaration that are compared. -/
def Decl.comparedTrees (p : Package) : Decl → List Expr
  | .value v => v.comparedTrees
  | .func f => f.comparedTrees
  | .type t => t.comparedTrees p

/-! ## Compatible declarations -/

/-- A later type is compatible with an earlier one if, after following names, the type parameters
are the same and the visible part is the same or a struct that has grown at its end. -/
def TypeSpec.Compatible (previous latest : Package) (p l : TypeSpec) : Prop :=
  Fields.same .ignored (previous.follow p).typeParams (latest.follow l).typeParams = true ∧
    (previous.follow p).type.exportedOnly.GrowsTo (latest.follow l).type.exportedOnly

/-- A later declaration is compatible with an earlier one of its kind: functions have the same
receivers and the same signature, constants and variables the same names, type and values. -/
def Decl.Compatible (previous latest : Package) : Decl → Decl → Prop
  | .value p, .value l => p.same l = true
  | .func p, .func l => sameReceivers p.recv l.recv = true ∧ p.sig.same l.sig = true
  | .type p, .type l => TypeSpec.Compatible previous latest p l
  | _, _ => False

/-! ## Severities by kind -/

/-- The severity of a reason that there may be for a change. -/
def judgement : Option Reason → Severity
  | none => .patch
  | some reason => reason.severity

theorem Reason.severity_ne_patch (r : Reason) : r.severity ≠ .patch := by
  cases r <;> simp [Reason.severity]

/-- Only the lack of a reason is a patch. -/
theorem judgement_le_patch_iff {r : Option Reason} : judgement r ≤ .patch ↔ r = none := by
  rw [Severity.le_patch_iff]
  cases r with
  | none => simp [judgement]
  | some r => simp [judgement, Reason.severity_ne_patch]

/-- The keys of methods of unexported types. -/
def isHiddenKey (key : String × Option String) : Bool :=
  match key.2 with
  | some base => !isExported base
  | none => false

theorem FuncDecl.isHiddenKey_key (f : FuncDecl) : isHiddenKey f.key = f.isHidden := rfl

/-- Why two declarations of the same constants or variables differ, if they do. -/
def ValueSpec.difference? (p l : ValueSpec) : Option Reason :=
  if p.same l then none else some (.valueChanged p.kind)

/-- Every difference between functions is major. -/
theorem FuncDecl.severity_of_difference? {p l : FuncDecl} {r : Reason}
    (h : p.difference? l = some r) : r.severity = .major := by
  unfold FuncDecl.difference? at h
  split at h
  · exact Option.some.inj h ▸ rfl
  · split at h
    · exact Option.some.inj h ▸ rfl
    · cases h

/-- Visible parts differ by appended fields or otherwise. -/
theorem visibleDifference?_eq_some {a b : Expr} {r : Reason}
    (h : visibleDifference? a b = some r) : r = .fieldsAppended ∨ r = .typeChanged := by
  unfold visibleDifference? at h
  split at h
  · split at h
    · cases h
    · split at h
      · exact Or.inl (Option.some.inj h).symm
      · exact Or.inr (Option.some.inj h).symm
  · split at h
    · cases h
    · exact Or.inr (Option.some.inj h).symm

/-- A difference between types is as severe as its reason. -/
theorem TypeSpec.severity_of_difference? {previous latest : Package} {p l : TypeSpec} {r : Reason}
    (h : p.difference? previous l latest = some r) : r.severity = typeSeverity r := by
  unfold TypeSpec.difference? at h
  simp only at h
  split at h
  · exact Option.some.inj h ▸ rfl
  · split at h
    · exact Option.some.inj h ▸ rfl
    · obtain rfl | rfl := visibleDifference?_eq_some h <;> rfl

theorem funcChange_both (p l : FuncDecl) :
    funcChange (.both p l) =
      (p.difference? l).map fun r => .changed r.severity r p.snippet l.snippet :=
  Option.map_congr fun _ hr => by rw [FuncDecl.severity_of_difference? hr]

/-- Partners among types are reported for their difference. -/
theorem typeChange_both (previous latest : Package) (p l : TypeSpec) :
    typeChange (some previous) (some latest) (.both p l) =
      (p.difference? previous l latest).map fun r =>
        .changed r.severity r p.snippet l.snippet :=
  Option.map_congr fun _ hr => by rw [TypeSpec.severity_of_difference? hr]

/-- Constants and variables: a change is major. -/
theorem valueChange_judges :
    Judges ValueSpec.key (fun _ => false) (fun p l => judgement (p.difference? l))
      valueChange where
  added _ := rfl
  removed _ := rfl
  both p l := by
    cases h : p.same l <;>
      simp [valueChange, ValueSpec.difference?, h, severityOf, Change.changed, judgement,
        Reason.severity]

/-- Functions: a change is major, the loss of a hidden method is none. -/
theorem funcChange_judges :
    Judges FuncDecl.key isHiddenKey (fun p l => judgement (p.difference? l)) funcChange where
  added _ := rfl
  removed p := by
    rw [FuncDecl.isHiddenKey_key]
    cases h : p.isHidden <;> simp [funcChange, h, severityOf, Change.removed]
  both p l := by
    rw [funcChange_both]
    cases p.difference? l <;> rfl

/-- Types: appended fields are minor, any other change is major. -/
theorem typeChange_judges (previous latest : Package) :
    Judges TypeSpec.key (fun _ => false)
      (fun p l => judgement (p.difference? previous l latest))
      (typeChange (some previous) (some latest)) where
  added _ := rfl
  removed _ := rfl
  both p l := by
    rw [typeChange_both]
    cases p.difference? previous l latest <;> rfl

theorem sameNames_iff {xs ys : List Ident} :
    sameNames xs ys = true ↔ List.Forall₂ (fun x y => x.same y = true) xs ys := by
  rw [List.forall₂_iff_zip]
  simp [sameNames]

theorem ValueSpec.difference?_eq_none_iff (p l : ValueSpec) :
    p.difference? l = none ↔ p.same l = true := by
  cases h : p.same l <;> simp [ValueSpec.difference?, h]

theorem ValueSpec.judgement_le_minor_iff (p l : ValueSpec) :
    judgement (p.difference? l) ≤ .minor ↔ p.same l = true := by
  cases h : p.same l <;>
    simp [ValueSpec.difference?, h, judgement, Reason.severity] <;> decide

/-- Functions are judged unchanged when receivers and signatures are the same. -/
theorem FuncDecl.difference?_eq_none_iff (p l : FuncDecl) :
    p.difference? l = none ↔
      sameReceivers p.recv l.recv = true ∧ p.sig.same l.sig = true := by
  cases hrecv : sameReceivers p.recv l.recv <;> cases hsig : p.sig.same l.sig <;>
    simp [FuncDecl.difference?, hrecv, hsig]

/-- A changed function is a major change, so below major there is none. -/
theorem FuncDecl.judgement_le_minor_iff (p l : FuncDecl) :
    judgement (p.difference? l) ≤ .minor ↔
      sameReceivers p.recv l.recv = true ∧ p.sig.same l.sig = true := by
  rw [← FuncDecl.difference?_eq_none_iff]
  cases hrecv : sameReceivers p.recv l.recv <;> cases hsig : p.sig.same l.sig <;>
    simp [FuncDecl.difference?, hrecv, hsig, judgement, Reason.severity] <;> decide

/-- Visible parts that are not both structs differ unless they are the same. -/
theorem visibleDifference?_of_not_structs {a b : Expr}
    (h : ∀ fs gs, a = .struct fs → b = .struct gs → False) :
    visibleDifference? a b = if a.same b then none else some .typeChanged := by
  unfold visibleDifference?
  split
  · exact absurd rfl (fun ha => h _ _ ha rfl)
  · rfl

/-- Visible parts are unchanged when they are the same. -/
theorem visibleDifference?_eq_none_iff (a b : Expr) :
    visibleDifference? a b = none ↔ a.same b = true := by
  by_cases h : ∃ fs gs, a = .struct fs ∧ b = .struct gs
  · obtain ⟨fs, gs, rfl, rfl⟩ := h
    rw [show (Expr.struct fs).same (.struct gs) = Fields.same .significant fs gs from rfl]
    cases hsame : Fields.same .significant fs gs <;>
      cases hext : Fields.extendedBy fs gs <;> simp [visibleDifference?, hsame, hext]
  · rw [visibleDifference?_of_not_structs fun fs gs ha hb => h ⟨fs, gs, ha, hb⟩]
    cases a.same b <;> simp

/-- Visible parts are judged below major when the later one has grown from the earlier one. -/
theorem judgement_visibleDifference?_le_minor_iff (a b : Expr) :
    judgement (visibleDifference? a b) ≤ .minor ↔ a.GrowsTo b := by
  by_cases h : ∃ fs gs, a = .struct fs ∧ b = .struct gs
  · obtain ⟨fs, gs, rfl, rfl⟩ := h
    have hgrows : (Expr.struct fs).GrowsTo (.struct gs) ↔ Fields.Grows fs gs := by
      constructor
      · intro hgrows
        obtain ⟨gs', hgs, hgrows⟩ := hgrows.struct
        exact Expr.struct.inj hgs ▸ hgrows
      · exact fun hgrows => Or.inr ⟨fs, gs, rfl, rfl, hgrows⟩
    rw [hgrows, Fields.grows_iff]
    cases hsame : Fields.same .significant fs gs <;>
      cases hext : Fields.extendedBy fs gs <;>
      simp [visibleDifference?, hsame, hext, judgement, Reason.severity] <;> decide
  · have hno : ¬ ∃ fs gs, a = .struct fs ∧ b = .struct gs ∧ Fields.Grows fs gs :=
      fun ⟨fs, gs, ha, hb, _⟩ => h ⟨fs, gs, ha, hb⟩
    rw [visibleDifference?_of_not_structs fun fs gs ha hb => h ⟨fs, gs, ha, hb⟩, Expr.GrowsTo,
      or_iff_left hno]
    cases a.same b <;> decide

/-- Whether the declared names of two types give no reason for a change: one of them stands for
another declaration, or the names are the same. -/
def TypeSpec.namesAgree (previous latest : Package) (p l : TypeSpec) : Bool :=
  (previous.follow p).viaName || (latest.follow l).viaName || p.name.same l.name

/-- Types are unchanged when declared names agree, and type parameters and visible parts are the
same. -/
theorem TypeSpec.difference?_eq_none_iff (previous latest : Package) (p l : TypeSpec) :
    p.difference? previous l latest = none ↔
      TypeSpec.namesAgree previous latest p l = true ∧
      Fields.same .ignored (previous.follow p).typeParams (latest.follow l).typeParams = true ∧
      (previous.follow p).type.exportedOnly.same (latest.follow l).type.exportedOnly = true := by
  rw [TypeSpec.difference?, ← visibleDifference?_eq_none_iff, TypeSpec.namesAgree]
  cases (previous.follow p).viaName <;> cases (latest.follow l).viaName <;>
    cases p.name.same l.name <;>
    cases Fields.same .ignored (previous.follow p).typeParams (latest.follow l).typeParams <;>
    simp

/-- Types are judged below major when declared names agree and the later one is compatible. -/
theorem TypeSpec.judgement_le_minor_iff (previous latest : Package) (p l : TypeSpec) :
    judgement (p.difference? previous l latest) ≤ .minor ↔
      TypeSpec.namesAgree previous latest p l = true ∧
      TypeSpec.Compatible previous latest p l := by
  rw [TypeSpec.difference?, TypeSpec.Compatible, ← judgement_visibleDifference?_le_minor_iff,
    TypeSpec.namesAgree]
  have hmajor : ¬ judgement (some .typeChanged) ≤ .minor := by decide
  cases (previous.follow p).viaName <;> cases (latest.follow l).viaName <;>
    cases p.name.same l.name <;>
    cases Fields.same .ignored (previous.follow p).typeParams (latest.follow l).typeParams <;>
    simp [hmajor]

/-- Two packages that are both present are as different as their values, functions and types. -/
theorem severity_comparePackages_le_iff {previous latest : Package} {s : Severity} :
    Diff.severity (comparePackages (some previous) (some latest)) ≤ s ↔
      Diff.severity (diffValues (some previous) (some latest)) ≤ s ∧
      Diff.severity (diffFunctions (some previous) (some latest)) ≤ s ∧
      Diff.severity (diffTypes (some previous) (some latest)) ≤ s := by
  rw [comparePackages, Diff.severity_append, Diff.severity_append, max_le_iff, max_le_iff,
    and_assoc]
  rfl

end GoSurface
