/-
# What binding depends on and what it keeps

A reference is bound by what its name stands for, so a declaration is resolved alike in two scopes
that agree on the names of its references.  Binding keeps every spelling, and with it what is
exported and the keys of declarations.

* `Decl.refs`, `Decl.resolve_congr`: the references of a declaration, and that resolving depends on
  what their names stand for;
* `Package.surface_resolve`: the extracted declarations of a resolved package;
* `Decl.key_resolve`: resolving keeps keys.
-/
import GoSurface.Proofs.Resolution
import GoSurface.Proofs.Surface

namespace GoSurface

/-! ## Scopes that agree -/

/-- Looking a name up depends on the entries of that name. -/
theorem lookup_filter {β : Type} (name : String) (xs : List (String × β)) :
    (xs.filter fun x => x.1 = name).lookup name = xs.lookup name := by
  induction xs with
  | nil => rfl
  | cons x xs ih =>
    obtain ⟨k, b⟩ := x
    by_cases hk : k = name
    · subst hk
      simp
    · have hne : (name == k) = false := beq_eq_false_iff_ne.mpr (Ne.symm hk)
      rw [List.filter_cons_of_neg (by simpa using hk), ih, List.lookup_cons, hne]

theorem mem_of_lookup {β : Type} {name : String} {b : β} {xs : List (String × β)}
    (h : xs.lookup name = some b) : (name, b) ∈ xs := by
  obtain ⟨before, after, rfl, -⟩ := List.lookup_eq_some_iff.mp h
  exact List.mem_append_right before List.mem_cons_self

/-- Something is found by a name that is listed. -/
theorem lookup_ne_none {β : Type} {name : String} {b : β} {xs : List (String × β)}
    (h : (name, b) ∈ xs) : xs.lookup name ≠ none := by
  intro hnone
  have hne := List.lookup_eq_none_iff.mp hnone _ h
  simp at hne

theorem Package.mem_scope {p : Package} {x : String × Binding} :
    x ∈ p.scope ↔ ∃ d ∈ p.decls, x ∈ d.declares := by
  rw [Package.scope, List.mem_reverse, List.mem_flatMap]

/-- A name stands for a declaration of that name. -/
theorem Package.name_eq_of_lookup_scope {p : Package} {name : String} {b : Binding}
    (h : p.scope.lookup name = some b) : b.name = name := by
  obtain ⟨d, -, hd⟩ := Package.mem_scope.mp (mem_of_lookup h)
  cases d with
  | func f =>
    simp only [Decl.declares] at hd
    split at hd
    · obtain ⟨rfl, rfl⟩ := Prod.mk.inj (List.mem_singleton.mp hd)
      rfl
    · cases hd
  | type t =>
    obtain ⟨rfl, rfl⟩ := Prod.mk.inj (List.mem_singleton.mp hd)
    rfl
  | value v =>
    obtain ⟨x, -, hx⟩ := List.mem_map.mp hd
    obtain ⟨rfl, rfl⟩ := Prod.mk.inj hx
    rfl

theorem Scope.bind_apply_congr {s s' : Scope} {x : Ident}
    (h : s.lookup x.name = s'.lookup x.name) (hidden : List String) :
    s.bind hidden x = s'.bind hidden x := by
  rw [Scope.bind, Scope.bind, h]

/-- Binding depends only on what names stand for. -/
theorem Scope.bind_eq_of_lookup {s s' : Scope} (h : ∀ name, s.lookup name = s'.lookup name) :
    s.bind = s'.bind := by
  funext hidden x
  exact Scope.bind_apply_congr (h x.name) hidden

/-- The references of a declaration. -/
def Decl.refs : Decl → List Ident
  | .func f => Fields.refs (f.recv.getD []) ++ f.sig.refs
  | .type t => Fields.refs t.typeParams ++ t.type.refs
  | .value v => Expr.refsOption v.type ++ Expr.refsList v.values

/-- Resolving a declaration depends on what the names of its references stand for. -/
theorem Decl.resolve_congr {s s' : Scope} {d : Decl}
    (h : ∀ x ∈ d.refs, s.lookup x.name = s'.lookup x.name) : d.resolve s = d.resolve s' := by
  cases d with
  | func f =>
    obtain ⟨hrecv, hsig⟩ := List.forall_mem_append.mp h
    have hreceiver : f.recv.map (Fields.mapRefs (s.bind f.hidden)) =
        f.recv.map (Fields.mapRefs (s'.bind f.hidden)) := by
      cases hf : f.recv with
      | none => rfl
      | some fs =>
        rw [hf] at hrecv
        exact congrArg some (Fields.mapRefs_eq_of_refs fun x hx =>
          Scope.bind_apply_congr (hrecv x hx) _)
    have hsignature : f.sig.mapRefs (s.bind f.hidden) = f.sig.mapRefs (s'.bind f.hidden) :=
      Signature.mapRefs_eq_of_refs fun x hx => Scope.bind_apply_congr (hsig x hx) _
    simp only [Decl.resolve, FuncDecl.resolve, hreceiver, hsignature]
  | type t =>
    obtain ⟨hparams, htype⟩ := List.forall_mem_append.mp h
    have hlist := Fields.mapRefs_eq_of_refs fun x hx =>
      Scope.bind_apply_congr (hparams x hx) (Fields.declaredNames t.typeParams)
    have htree := Expr.mapRefs_congr fun x hx =>
      Scope.bind_apply_congr (htype x hx) (Fields.declaredNames t.typeParams)
    simp only [Decl.resolve, TypeSpec.resolve, hlist, htree]
  | value v =>
    obtain ⟨htype, hvalues⟩ := List.forall_mem_append.mp h
    have htree : v.type.map (Expr.mapRefs (s.bind [])) =
        v.type.map (Expr.mapRefs (s'.bind [])) := by
      cases hv : v.type with
      | none => rfl
      | some e =>
        rw [hv] at htype
        exact congrArg some (Expr.mapRefs_congr fun x hx =>
          Scope.bind_apply_congr (htype x hx) _)
    have hrow : v.values.map (Expr.mapRefs (s.bind [])) =
        v.values.map (Expr.mapRefs (s'.bind [])) := by
      rw [Expr.refsList_eq_flatMap] at hvalues
      apply List.map_congr_left
      intro e he
      exact Expr.mapRefs_congr fun x hx =>
        Scope.bind_apply_congr (hvalues x (List.mem_flatMap.mpr ⟨e, he, hx⟩)) _
    simp only [Decl.resolve, ValueSpec.resolve, htree, hrow]

/-! ## Spellings -/

/-- Binding keeps the spelling. -/
theorem Scope.name_bind (s : Scope) (hidden : List String) (x : Ident) :
    (s.bind hidden x).name = x.name := by
  rw [Scope.bind]
  split
  · rfl
  · split <;> rfl

/-- Replacing references without changing their spelling keeps the base type. -/
theorem Expr.baseTypeName_mapRefs {f : Ident → Ident} (hf : ∀ x, (f x).name = x.name)
    (e : Expr) : (e.mapRefs f).baseTypeName = e.baseTypeName := by
  induction e using Expr.childInduction with
  | step e ih =>
    cases e with
    | ident x => exact congrArg some (hf x)
    | pointer e | paren e => exact ih e (List.mem_singleton_self e)
    | index e es => exact ih e List.mem_cons_self
    | _ => rfl

/-- Resolving keeps the base type of a receiver. -/
theorem FuncDecl.receiverBase_resolve (scope : Scope) (f : FuncDecl) :
    (f.resolve scope).receiverBase = f.receiverBase := by
  obtain ⟨_ | _ | ⟨⟨xs, t, tag⟩, rest⟩, name, sig, position⟩ := f
  · rfl
  · rfl
  · exact Expr.baseTypeName_mapRefs (Scope.name_bind scope _) t

/-- Resolving keeps keys. -/
theorem Decl.key_resolve (scope : Scope) (d : Decl) : (d.resolve scope).key = d.key := by
  cases d with
  | func f =>
    have hbase := f.receiverBase_resolve scope
    exact congrArg (fun base => DeclKey.func (f.name.name, base)) hbase
  | type t => rfl
  | value v =>
    have hnames : ((v.resolve scope).names.map fun x => x.name) = v.names.map fun x => x.name := by
      simp only [ValueSpec.resolve, List.map_map]
      rfl
    exact congrArg (fun names => DeclKey.value (v.kind, names)) hnames

/-- Resolving keeps names, so it keeps what is exported. -/
theorem Decl.isExported_resolve (scope : Scope) (d : Decl) :
    (d.resolve scope).isExported = d.isExported := by
  cases d with
  | func f => rfl
  | type t => rfl
  | value v =>
    simp only [Decl.resolve, ValueSpec.resolve, Decl.isExported, List.all_map]
    rfl

/-- The extracted declarations of a resolved package. -/
theorem Package.surface_resolve (p : Package) :
    p.resolve.surface = p.surface.map (Decl.resolve p.scope) := by
  rw [Package.surface, Package.decls_resolve, List.filter_map, Package.surface]
  congr 2
  funext d
  exact d.isExported_resolve p.scope

/-- Replacing extracted declarations, those of a kind by others of the kind, replaces what is
extracted of the kind. -/
theorem Decl.IsKind.exported_map {β ι : Type} {choose : Decl → Option β} {wrap : β → Decl}
    {subkey : β → ι} {embed : ι → DeclKey} {exported : β → Bool}
    (h : IsKind choose wrap subkey embed exported) {p q : Package} {f : Decl → Decl} {g : β → β}
    (hsurface : q.surface = p.surface.map f) (hkind : ∀ d, choose (f d) = (choose d).map g) :
    (q.decls.filterMap choose).filter exported =
      ((p.decls.filterMap choose).filter exported).map g := by
  rw [h.filter_exported, hsurface, filterMap_map_comm hkind, h.filter_exported]

theorem exportedValues_resolve (p : Package) :
    exportedValues (some p.resolve) =
      (exportedValues (some p)).map (ValueSpec.resolve p.scope) :=
  Decl.isKind_value.exported_map p.surface_resolve fun d => by cases d <;> rfl

theorem exportedFuncs_resolve (p : Package) :
    exportedFuncs (some p.resolve) = (exportedFuncs (some p)).map (FuncDecl.resolve p.scope) :=
  Decl.isKind_func.exported_map p.surface_resolve fun d => by cases d <;> rfl

theorem exportedTypes_resolve (p : Package) :
    exportedTypes (some p.resolve) = (exportedTypes (some p)).map (TypeSpec.resolve p.scope) :=
  Decl.isKind_type.exported_map p.surface_resolve fun d => by cases d <;> rfl

theorem Package.snippet_resolve (p : Package) : p.resolve.snippet = p.snippet := by
  rw [Package.snippet, Package.snippet, Package.resolve]
  cases p.files <;> rfl

theorem Package.typeSpec?_resolve (p : Package) (name : String) :
    p.resolve.typeSpec? name = (p.typeSpec? name).map (TypeSpec.resolve p.scope) := by
  rw [Package.typeSpec?, Package.types_resolve, List.find?_map]
  rfl

end GoSurface
