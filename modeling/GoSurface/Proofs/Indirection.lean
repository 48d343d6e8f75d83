/-
# Detours on the way to a type

A type may be declared by a name in place of its right-hand side, and that name by another one,
until the last one has the right-hand side.  Whoever follows names comes out at the same type: the
walk passes the new names, one after the other, and goes on as before, also if it leads back to
where it started.

* `Package.Passes`, `Package.walk_of_passes`: a walk through given names;
* `Package.Detour.walk_eq`: a walk with a detour ends where the direct one ends;
* `Package.Indirected`: a package in which a type is declared through a chain of new names;
* `diffTypes_of_indirected`: the chain is not noticed.
-/
import GoSurface.Proofs.Additions

namespace GoSurface

namespace Package

/-! ## Walks with a detour -/

/-- Following names from a declaration leads through the given names to a declaration with the given
type parameters and right-hand side. -/
inductive Passes (p : Package) (ts : Fields) (e : Expr) : TypeSpec → List String → Prop
  | arrived {s : TypeSpec} (hparams : s.typeParams = ts) (htype : s.type = e) : Passes p ts e s []
  | hop {s u : TypeSpec} {name : String} {names : List String}
      (hname : s.type.namedType? = some name) (hfind : p.typeSpec? name = some u)
      (hrest : Passes p ts e u names) : Passes p ts e s (name :: names)

/-- A walk passes names that it has not met. -/
theorem walk_of_passes {p : Package} {ts : Fields} {e : Expr} {s : TypeSpec} {names : List String}
    (h : p.Passes ts e s names) (hnodup : names.Nodup) {visited : List String}
    (hnew : ∀ name ∈ names, name ∉ visited) (via : Bool) :
    p.walk visited ⟨s.typeParams, s.type, via⟩ =
      p.walk (names.reverse ++ visited) ⟨ts, e, via || !names.isEmpty⟩ := by
  induction h generalizing visited via with
  | arrived hparams htype => simp [hparams, htype]
  | @hop s u name names hname hfind _ ih =>
    rw [List.nodup_cons] at hnodup
    rw [List.forall_mem_cons] at hnew
    have hstep : p.next? visited s.type = some (name, u) :=
      next?_eq_some_iff.mpr ⟨hname, hnew.1, hfind⟩
    have hrest : ∀ next ∈ names, next ∉ name :: visited := by
      intro next hnext hmem
      rcases List.mem_cons.mp hmem with rfl | hmem
      · exact hnodup.1 hnext
      · exact hnew.2 next hnext hmem
    rw [walk_of_next? hstep, ih hnodup.2 hrest]
    simp

/-- Two packages agree but for one type, which the second one declares by way of further names.  No
type of the first package has such a name or leads to one. -/
structure Detour (P Q : Package) (t t' : TypeSpec) (names : List String) : Prop where
  direct : P.typeSpec? t.key = some t
  entry : Q.typeSpec? t.key = some t'
  passes : Q.Passes t.typeParams t.type t' names
  nodup : names.Nodup
  apart : ∀ u ∈ P.types, u.key ∉ names
  leads : ∀ u ∈ P.types, ∀ name, u.type.namedType? = some name →
    name ∉ names ∧ (name ≠ t.key → Q.typeSpec? name = P.typeSpec? name)

namespace Detour

variable {P Q : Package} {t t' : TypeSpec} {names : List String}

theorem mem_types (h : P.Detour Q t t' names) : t ∈ P.types :=
  List.mem_of_find?_eq_some h.direct

/-- Walks that have met the same names end at the same type.  The names of the detour do not count,
but they must be new if the detour is still ahead. -/
theorem walk_eq (h : P.Detour Q t t' names) {visited visited' : List String} {r : Resolved}
    (hr : ∃ u ∈ P.types, u.type = r.type)
    (hmet : ∀ name, name ∉ names → (name ∈ visited' ↔ name ∈ visited))
    (hahead : t.key ∉ visited → ∀ name ∈ names, name ∉ visited') :
    Q.walk visited' r = P.walk visited r := by
  -- The direct walk has one hop less to go; the other one may make several at once.
  induction hunmet : P.unmet visited using Nat.strongRecOn generalizing visited visited' r with
  | ind unmet ih =>
    obtain ⟨u, hu, htype⟩ := hr
    cases hstep : P.next? visited r.type with
    | none =>
      have hstop : Q.next? visited' r.type = none := by
        rw [next?_eq_none_iff] at hstep ⊢
        intro name hname hnew
        obtain ⟨hoff, hagree⟩ := h.leads u hu name (htype ▸ hname)
        have hnone := hstep name hname fun hmem => hnew ((hmet name hoff).mpr hmem)
        have hne : name ≠ t.key := by
          rintro rfl
          rw [h.direct] at hnone
          cases hnone
        rw [hagree hne, hnone]
      rw [walk_of_next?_eq_none hstep, walk_of_next?_eq_none hstop]
    | some step =>
      obtain ⟨name, s⟩ := step
      obtain ⟨hname, hnew, hfind⟩ := next?_eq_some_iff.mp hstep
      obtain ⟨hoff, hagree⟩ := h.leads u hu name (htype ▸ hname)
      have hnew' : name ∉ visited' := fun hmem => hnew ((hmet name hoff).mp hmem)
      have hless : P.unmet (name :: visited) < unmet := hunmet ▸ unmet_lt_of_next? hstep
      have hs : ∃ u ∈ P.types, u.type = s.type := ⟨s, List.mem_of_find?_eq_some hfind, rfl⟩
      rw [walk_of_next? hstep]
      by_cases hhere : name = t.key
      · -- The other walk takes the whole detour.
        subst hhere
        obtain rfl : t = s := Option.some.inj (h.direct.symm.trans hfind)
        have hstep' : Q.next? visited' r.type = some (t.key, t') :=
          next?_eq_some_iff.mpr ⟨hname, hnew', h.entry⟩
        have hunused : ∀ name ∈ names, name ∉ t.key :: visited' := by
          intro name hmem hvisited
          rcases List.mem_cons.mp hvisited with rfl | hvisited
          · exact hoff hmem
          · exact hahead hnew name hmem hvisited
        rw [walk_of_next? hstep', walk_of_passes h.passes h.nodup hunused, Bool.true_or]
        refine ih _ hless hs ?_ ?_ rfl
        · intro name hname
          simp [hname, hmet name hname]
        · exact fun hmissing => absurd List.mem_cons_self hmissing
      · have hstep' : Q.next? visited' r.type = some (name, s) :=
          next?_eq_some_iff.mpr ⟨hname, hnew', (hagree hhere).trans hfind⟩
        rw [walk_of_next? hstep']
        refine ih _ hless hs ?_ ?_ rfl
        · intro name' hname'
          simp [hmet name' hname']
        · intro hmissing name' hmem hvisited
          rcases List.mem_cons.mp hvisited with rfl | hvisited
          · exact hoff hmem
          · exact hahead (fun hmet => hmissing (List.mem_cons_of_mem _ hmet)) name' hmem hvisited

/-- Other types stand for what they stood for. -/
theorem follow_eq (h : P.Detour Q t t' names) {u : TypeSpec} (hu : u ∈ P.types) :
    Q.follow u = P.follow u := by
  refine h.walk_eq ⟨u, hu, rfl⟩ (fun _ _ => Iff.rfl) ?_
  intro _ name hname hmem
  obtain rfl : name = u.key := List.mem_singleton.mp hmem
  exact h.apart u hu hname

/-- The type itself stands for what it stood for. -/
theorem follow_entry (h : P.Detour Q t t' names) (hkey : t'.key = t.key) :
    (Q.follow t').typeParams = (P.follow t).typeParams ∧
      (Q.follow t').type = (P.follow t).type := by
  have hunused : ∀ name ∈ names, name ∉ [t'.key] := by
    intro name hname hmem
    obtain rfl : name = t.key := (List.mem_singleton.mp hmem).trans hkey
    exact h.apart t h.mem_types hname
  have hpass : Q.follow t' =
      Q.walk (names.reverse ++ [t'.key]) ⟨t.typeParams, t.type, false || !names.isEmpty⟩ :=
    walk_of_passes h.passes h.nodup hunused false
  have hdirect :
      Q.walk (names.reverse ++ [t'.key]) ⟨t.typeParams, t.type, false || !names.isEmpty⟩ =
        P.walk [t.key] ⟨t.typeParams, t.type, false || !names.isEmpty⟩ := by
    refine h.walk_eq ⟨t, h.mem_types, rfl⟩ ?_ ?_
    · intro name hname
      simp [hname, hkey]
    · exact fun hmissing => absurd (List.mem_singleton_self _) hmissing
  rw [hpass, hdirect]
  exact P.walk_viaName _ _ _ _ _

end Detour

end Package

/-! ## A declaration in place of another -/

/-- A declaration, or another one in its place if that has its name. -/
def TypeSpec.redeclare (s u : TypeSpec) : TypeSpec :=
  if u.key = s.key then s else u

/-- The same for declarations of all kinds. -/
def Decl.redeclare (s : TypeSpec) : Decl → Decl
  | .type u => .type (s.redeclare u)
  | d => d

/-- The name stays. -/
@[simp] theorem TypeSpec.key_redeclare (s u : TypeSpec) : (s.redeclare u).key = u.key := by
  unfold TypeSpec.redeclare
  split
  · next hkey => exact hkey.symm
  · rfl

theorem TypeSpec.redeclare_of_ne {s u : TypeSpec} (h : u.key ≠ s.key) : s.redeclare u = u :=
  if_neg h

theorem TypeSpec.redeclare_of_eq {s u : TypeSpec} (h : u.key = s.key) : s.redeclare u = s :=
  if_pos h

/-- The names of a package stand for what they stood for. -/
theorem Decl.declares_redeclare (s : TypeSpec) (d : Decl) :
    (d.redeclare s).declares = d.declares := by
  cases d with
  | type u =>
    have hkey := s.key_redeclare u
    exact congrArg (fun name : String => [(name, (⟨.type, name, none⟩ : Binding))]) hkey
  | _ => rfl

/-- Replacing and resolving can change places. -/
theorem Decl.resolve_redeclare (scope : Scope) (s : TypeSpec) (d : Decl) :
    (d.redeclare s).resolve scope = (d.resolve scope).redeclare (s.resolve scope) := by
  cases d with
  | type u =>
    by_cases hkey : u.key = s.key
    · have hkey' : (u.resolve scope).key = (s.resolve scope).key := hkey
      simp only [Decl.redeclare, Decl.resolve, TypeSpec.redeclare_of_eq hkey,
        TypeSpec.redeclare_of_eq hkey']
    · have hkey' : (u.resolve scope).key ≠ (s.resolve scope).key := hkey
      simp only [Decl.redeclare, Decl.resolve, TypeSpec.redeclare_of_ne hkey,
        TypeSpec.redeclare_of_ne hkey']
  | _ => rfl

namespace Package

/-- A type is found by its name if no other type has that name. -/
theorem typeSpec?_eq_some_of_unique {p : Package} {t : TypeSpec} (ht : t ∈ p.types)
    (hunique : ∀ u ∈ p.types, u.key = t.key → u = t) : p.typeSpec? t.key = some t := by
  obtain ⟨u, hu⟩ : ∃ u, partner? TypeSpec.key p.types t = some u := exists_partner? ht rfl
  obtain ⟨hmem, hkey⟩ := mem_of_partner? hu
  obtain rfl := hunique u hmem hkey
  exact hu

section Redeclared

variable {R Q : Package} {s : TypeSpec}

theorem types_of_redeclared (h : Q.decls = R.decls.map (Decl.redeclare s)) :
    Q.types = R.types.map s.redeclare := by
  rw [Package.types, Package.types, h]
  exact filterMap_map_comm (fun d => by cases d <;> rfl) R.decls

/-- The types that are extracted from it. -/
theorem exportedTypes_of_redeclared (h : Q.decls = R.decls.map (Decl.redeclare s)) :
    exportedTypes (some Q) = (exportedTypes (some R)).map s.redeclare := by
  have hexported : ((fun u : TypeSpec => u.name.isExported) ∘ s.redeclare) =
      fun u => u.name.isExported := by
    funext u
    exact congrArg isExported (s.key_redeclare u)
  simp only [exportedTypes, types_of_redeclared h, List.filter_map, hexported]

/-- Other names are those of the same types. -/
theorem typeSpec?_of_redeclared (h : Q.decls = R.decls.map (Decl.redeclare s)) {name : String}
    (hname : name ≠ s.key) : Q.typeSpec? name = R.typeSpec? name := by
  have hkey : ((fun u : TypeSpec => decide (u.name.name = name)) ∘ s.redeclare) =
      fun u => decide (u.name.name = name) := by
    funext u
    exact congrArg (fun key => decide (key = name)) (s.key_redeclare u)
  rw [Package.typeSpec?, Package.typeSpec?, types_of_redeclared h, List.find?_map, hkey]
  cases hfind : R.types.find? fun u => decide (u.name.name = name) with
  | none => rfl
  | some u =>
    have hu : u.name.name = name := by simpa using List.find?_some hfind
    have hne : u.key ≠ s.key := fun hkey => hname (hu.symm.trans hkey)
    exact congrArg some (TypeSpec.redeclare_of_ne hne)

/-- The name is that of the new declaration. -/
theorem typeSpec?_redeclared (h : Q.decls = R.decls.map (Decl.redeclare s)) {t : TypeSpec}
    (ht : t ∈ R.types) (hkey : t.key = s.key) : Q.typeSpec? s.key = some s := by
  have htypes := types_of_redeclared h
  apply typeSpec?_eq_some_of_unique
  · rw [htypes]
    exact List.mem_map.mpr ⟨t, ht, TypeSpec.redeclare_of_eq hkey⟩
  · intro u hu hukey
    rw [htypes] at hu
    obtain ⟨v, -, rfl⟩ := List.mem_map.mp hu
    rw [TypeSpec.key_redeclare] at hukey
    exact TypeSpec.redeclare_of_eq hukey

end Redeclared

end Package

/-! ## Chains of names -/

/-- A declaration leads through the following ones, each named by the one before it, to the given
type parameters and right-hand side.  No type parameter hides the name that comes next. -/
inductive TypeSpec.Chain (ts : Fields) (e : Expr) : TypeSpec → List TypeSpec → Prop
  | last {s : TypeSpec} (hparams : s.typeParams = ts) (htype : s.type = e) : Chain ts e s []
  | link {s u : TypeSpec} {x : Ident} {rest : List TypeSpec} (htype : s.type = .ident x)
      (hname : x.name = u.key) (hopen : x.name ∉ Fields.declaredNames s.typeParams)
      (hrest : Chain ts e u rest) : Chain ts e s (u :: rest)

/-- The last package has a type of the first one declared through a chain of new names.  The package
in between has the new declarations already, put anywhere, but still the old declaration of the
type, which is the only one.  The new names are distinct, not exported and not declared before. -/
structure Package.Indirected (p r q : Package) (t t' : TypeSpec) (links : List TypeSpec) :
    Prop where
  once : (p.types.filter fun u => u.key = t.key) = [t]
  key : t'.key = t.key
  chain : TypeSpec.Chain t.typeParams t.type t' links
  distinct : (links.map TypeSpec.key).Nodup
  unexported : ∀ s ∈ links, s.name.isExported = false
  undeclared : ∀ s ∈ links, p.scope.lookup s.key = none
  extended : ∃ new, new.Perm (links.map Decl.type) ∧ p.Extends r new
  redeclared : q.decls = r.decls.map (Decl.redeclare t')

namespace Package.Indirected

variable {p r q : Package} {t t' : TypeSpec} {links : List TypeSpec}

/-- The type is one of the first package. -/
theorem mem_types (h : p.Indirected r q t t' links) : t ∈ p.types := by
  have hmem : t ∈ p.types.filter fun u => u.key = t.key := by
    rw [h.once]
    exact List.mem_singleton_self t
  exact (List.mem_filter.mp hmem).1

/-- No other type of the first package has its name. -/
theorem eq_of_key (h : p.Indirected r q t t' links) {u : TypeSpec} (hu : u ∈ p.types)
    (hkey : u.key = t.key) : u = t := by
  have hmem : u ∈ p.types.filter fun u => u.key = t.key :=
    List.mem_filter.mpr ⟨hu, by simpa using hkey⟩
  rw [h.once] at hmem
  exact List.mem_singleton.mp hmem

/-- No type of the first package has the name of a new one. -/
theorem key_ne (h : p.Indirected r q t t' links) {u s : TypeSpec} (hu : u ∈ p.types)
    (hs : s ∈ links) : u.key ≠ s.key := by
  intro hkey
  have hmem : (u.key, (⟨.type, u.key, none⟩ : Binding)) ∈ p.scope :=
    Package.mem_scope.mpr ⟨.type u, Decl.isKind_type.mem_filterMap.mp hu, List.mem_singleton_self _⟩
  exact lookup_ne_none hmem (hkey ▸ h.undeclared s hs)

/-- The declarations of the package in between. -/
theorem mem_decls_iff (h : p.Indirected r q t t' links) {d : Decl} :
    d ∈ r.decls ↔ d ∈ p.decls ∨ ∃ s ∈ links, d = .type s := by
  obtain ⟨new, hperm, hextends⟩ := h.extended
  rw [hextends.interleaved.mem_iff, hperm.mem_iff, List.mem_map]
  simp only [eq_comm]

/-- Its types. -/
theorem mem_types_iff (h : p.Indirected r q t t' links) {u : TypeSpec} :
    u ∈ r.types ↔ u ∈ p.types ∨ u ∈ links := by
  rw [Package.types, Package.types, Decl.isKind_type.mem_filterMap,
    Decl.isKind_type.mem_filterMap, h.mem_decls_iff]
  simp

/-- Replacing the declaration of the type changes nothing about names. -/
theorem scope_eq (h : p.Indirected r q t t' links) : q.scope = r.scope := by
  have hdeclares : (Decl.declares ∘ Decl.redeclare t') = Decl.declares := by
    funext d
    exact d.declares_redeclare t'
  rw [Package.scope, Package.scope, h.redeclared, List.flatMap_map]
  exact congrArg (fun f => (r.decls.flatMap f).reverse) hdeclares

/-- Types of the first package are resolved as before. -/
theorem resolve_eq (h : p.Indirected r q t t' links) {u : TypeSpec} (hu : u ∈ p.types) :
    u.resolve q.scope = u.resolve p.scope := by
  obtain ⟨new, -, hextends⟩ := h.extended
  rw [h.scope_eq]
  exact (Decl.type.inj (hextends.resolve_eq (Decl.isKind_type.mem_filterMap.mp hu))).symm

/-- Replacing goes on in the resolved packages. -/
theorem decls_resolve (h : p.Indirected r q t t' links) :
    q.resolve.decls = r.resolve.decls.map (Decl.redeclare (t'.resolve q.scope)) := by
  rw [Package.decls_resolve, Package.decls_resolve, h.redeclared, List.map_map, List.map_map,
    ← h.scope_eq]
  apply List.map_congr_left
  intro d _
  exact Decl.resolve_redeclare q.scope t' d

/-- A new name stands for the new type. -/
theorem lookup_link (h : p.Indirected r q t t' links) {s : TypeSpec} (hs : s ∈ links) :
    q.scope.lookup s.key = some ⟨.type, s.key, none⟩ := by
  have hlisted : (s.key, (⟨.type, s.key, none⟩ : Binding)) ∈ q.scope := by
    rw [h.scope_eq, Package.mem_scope]
    exact ⟨.type s, h.mem_decls_iff.mpr (Or.inr ⟨s, hs, rfl⟩), List.mem_singleton_self _⟩
  obtain ⟨b, hb⟩ := Option.ne_none_iff_exists'.mp (lookup_ne_none hlisted)
  -- Nothing else has that name, wherever the new declaration stands.
  have hlink : b = ⟨.type, s.key, none⟩ := by
    have hmem := mem_of_lookup hb
    rw [h.scope_eq, Package.mem_scope] at hmem
    obtain ⟨d, hd, hdeclares⟩ := hmem
    rcases h.mem_decls_iff.mp hd with hold | ⟨u, -, rfl⟩
    · have hdeclared : (s.key, b) ∈ p.scope := Package.mem_scope.mpr ⟨d, hold, hdeclares⟩
      exact absurd (h.undeclared s hs) (lookup_ne_none hdeclared)
    · obtain ⟨hkey, rfl⟩ := Prod.mk.inj (List.mem_singleton.mp hdeclares)
      rw [hkey]
  rw [hb, hlink]

/-- A new type is found by its name. -/
theorem typeSpec?_link (h : p.Indirected r q t t' links) {s : TypeSpec} (hs : s ∈ links) :
    q.resolve.typeSpec? s.key = some (s.resolve q.scope) := by
  have hfind : r.typeSpec? s.key = some s := by
    apply Package.typeSpec?_eq_some_of_unique (h.mem_types_iff.mpr (Or.inr hs))
    intro u hu hkey
    rcases h.mem_types_iff.mp hu with hold | hnew
    · exact absurd hkey (h.key_ne hold hs)
    · exact List.inj_on_of_nodup_map h.distinct hnew hs hkey
  have hne : s.key ≠ (t'.resolve q.scope).key := by
    intro hkey
    exact h.key_ne h.mem_types hs (hkey.trans h.key).symm
  rw [Package.typeSpec?_of_redeclared h.decls_resolve hne, Package.typeSpec?_resolve, hfind,
    h.scope_eq, Option.map_some]

/-- Resolved, the chain is one that a walk passes. -/
theorem passes (h : p.Indirected r q t t' links) {s : TypeSpec} {rest : List TypeSpec}
    (hchain : TypeSpec.Chain t.typeParams t.type s rest) (hrest : ∀ u ∈ rest, u ∈ links) :
    q.resolve.Passes (t.resolve p.scope).typeParams (t.resolve p.scope).type (s.resolve q.scope)
      (rest.map TypeSpec.key) := by
  induction hchain with
  | last hparams htype =>
    rw [← h.resolve_eq h.mem_types]
    refine .arrived ?_ ?_
    · simp only [TypeSpec.resolve, hparams]
    · simp only [TypeSpec.resolve, hparams, htype]
  | @link s u x rest htype hname hopen _ ih =>
    rw [List.forall_mem_cons] at hrest
    have hlookup : q.scope.lookup x.name = some ⟨.type, u.key, none⟩ :=
      hname ▸ h.lookup_link hrest.1
    refine .hop ?_ (h.typeSpec?_link hrest.1) (ih hrest.2)
    simp only [TypeSpec.resolve, htype, Expr.mapRefs, Scope.bind, if_neg hopen, hlookup,
      Expr.namedType?]

/-- Resolved, the package has a detour. -/
theorem detour (h : p.Indirected r q t t' links) :
    p.resolve.Detour q.resolve (t.resolve p.scope) (t'.resolve q.scope)
      (links.map TypeSpec.key) where
  direct := by
    have hfind : p.typeSpec? t.key = some t :=
      Package.typeSpec?_eq_some_of_unique h.mem_types fun u hu hkey => h.eq_of_key hu hkey
    exact (Package.typeSpec?_resolve p t.key).trans (congrArg _ hfind)
  entry := by
    have hmem : t.resolve r.scope ∈ r.resolve.types := by
      rw [Package.types_resolve]
      exact List.mem_map_of_mem (h.mem_types_iff.mpr (Or.inl h.mem_types))
    have hfind := Package.typeSpec?_redeclared h.decls_resolve hmem h.key.symm
    exact h.key ▸ hfind
  passes := h.passes h.chain fun _ hu => hu
  nodup := h.distinct
  apart := by
    intro u hu hmem
    rw [Package.types_resolve] at hu
    obtain ⟨v, hv, rfl⟩ := List.mem_map.mp hu
    obtain ⟨s, hs, hkey⟩ := List.mem_map.mp hmem
    exact h.key_ne hv hs hkey.symm
  leads := by
    intro u hu name hname
    rw [Package.types_resolve] at hu
    obtain ⟨v, hv, rfl⟩ := List.mem_map.mp hu
    obtain ⟨new, hperm, hextends⟩ := h.extended
    have hmentions : p.Mentions name :=
      Package.mentions_of_namedType? (Decl.isKind_type.mem_filterMap.mp hv) hname
    constructor
    · intro hmem
      obtain ⟨s, hs, rfl⟩ := List.mem_map.mp hmem
      have hnew : Decl.type s ∈ new := hperm.mem_iff.mpr (List.mem_map_of_mem hs)
      exact hextends.unmentioned _ hnew _ (List.mem_singleton_self _) hmentions
    · intro hne
      have hne' : name ≠ (t'.resolve q.scope).key := fun hkey => hne (hkey.trans h.key)
      rw [Package.typeSpec?_of_redeclared h.decls_resolve hne', hextends.typeSpec?_eq hmentions]

/-- The new types are not extracted, and the type is, with its new declaration. -/
theorem exportedTypes_eq (h : p.Indirected r q t t' links) :
    exportedTypes (some q.resolve) =
      (exportedTypes (some p.resolve)).map (t'.resolve q.scope).redeclare := by
  obtain ⟨new, hperm, hextends⟩ := h.extended
  have hhidden : new.filter Decl.isExported = [] := by
    rw [List.filter_eq_nil_iff]
    intro d hd hexported
    obtain ⟨s, hs, rfl⟩ := List.mem_map.mp (hperm.mem_iff.mp hd)
    exact absurd hexported (by simp [Decl.isExported, h.unexported s hs])
  have hsurface := hextends.surface
  rw [hhidden, List.map_nil] at hsurface
  rw [Package.exportedTypes_of_redeclared h.decls_resolve, exportedTypes_some r.resolve,
    hsurface.eq_of_nil, ← exportedTypes_some]

end Package.Indirected

/-! ## Comparing -/

/-- No change quotes a declaration of this name. -/
def Diff.SilentOn (d : Diff) (name : String) : Prop :=
  ∀ c ∈ d, ∀ s ∈ c.snippets, s.name ≠ name

instance (d : Diff) (name : String) : Decidable (d.SilentOn name) :=
  inferInstanceAs (Decidable (∀ c ∈ d, ∀ s ∈ c.snippets, s.name ≠ name))

/-- The second package has the extracted types of the first one, each standing for what it stood
for.  At most the types of one name are declared anew. -/
structure Package.StandsIn (p q : Package) (name : String) (f : TypeSpec → TypeSpec) : Prop where
  exported : exportedTypes (some q.resolve) = (exportedTypes (some p.resolve)).map f
  key : ∀ u, (f u).key = u.key
  fixed : ∀ u, u.key ≠ name → f u = u
  follow : ∀ u ∈ exportedTypes (some p.resolve),
    (q.resolve.follow (f u)).typeParams = (p.resolve.follow u).typeParams ∧
      (q.resolve.follow (f u)).type = (p.resolve.follow u).type

namespace Package.StandsIn

variable {p q q' : Package} {name : String} {f g : TypeSpec → TypeSpec}

/-- A package stands in for itself. -/
theorem refl (p : Package) (name : String) : p.StandsIn p name id where
  exported := (List.map_id _).symm
  key _ := rfl
  fixed _ _ := rfl
  follow _ _ := ⟨rfl, rfl⟩

/-- An extracted type is one of the package that stands in. -/
theorem mem_decls (h : p.StandsIn q name f) {u : TypeSpec}
    (hu : u ∈ exportedTypes (some p.resolve)) : Decl.type (f u) ∈ q.resolve.decls := by
  have hmem : f u ∈ exportedTypes (some q.resolve) := by
    rw [h.exported]
    exact List.mem_map_of_mem hu
  exact Decl.isKind_type.mem_filterMap.mp (List.mem_filter.mp hmem).1

/-- Types of one name differ as they did. -/
theorem difference?_eq (h : p.StandsIn q name f) (h' : p.StandsIn q' name g) {t u : TypeSpec}
    (ht : t ∈ exportedTypes (some p.resolve)) (hu : u ∈ exportedTypes (some p.resolve))
    (hkey : u.key = t.key) :
    (f t).difference? q.resolve (g u) q'.resolve = t.difference? p.resolve u p.resolve := by
  have hname : t.name.same u.name = true :=
    TypeSpec.name_same_of_resolve ((refl p name).mem_decls ht) ((refl p name).mem_decls hu)
      hkey.symm
  have hname' : (f t).name.same (g u).name = true := by
    refine TypeSpec.name_same_of_resolve (h.mem_decls ht) (h'.mem_decls hu) ?_
    exact (h.key t).trans (hkey.symm.trans (h'.key u).symm)
  obtain ⟨hparams, htype⟩ := h.follow t ht
  obtain ⟨hparams', htype'⟩ := h'.follow u hu
  simp only [TypeSpec.difference?, hname, hname', hparams, htype, hparams', htype']
  simp

/-- A pair amounts to the change that it amounted to, if nothing is reported of the types that are
declared anew. -/
theorem typeChange_eq (h : p.StandsIn q name f) (h' : p.StandsIn q' name g)
    (hsilent : (diffTypes (some p.resolve) (some p.resolve)).SilentOn name) {x : Pair TypeSpec}
    (hx : x ∈ pairByKey TypeSpec.key (exportedTypes (some p.resolve))
      (exportedTypes (some p.resolve))) :
    typeChange (some q.resolve) (some q'.resolve) (x.mapSides f g) =
      typeChange (some p.resolve) (some p.resolve) x := by
  -- Whatever a change quotes has kept its declaration.
  have hquoted : ∀ c, typeChange (some p.resolve) (some p.resolve) x = some c →
      ∀ s ∈ c.snippets, s.name ≠ name :=
    fun c hc => hsilent c (List.mem_filterMap.mpr ⟨x, hx, hc⟩)
  cases x with
  | removed t =>
    have hkept : f t = t := h.fixed t (hquoted _ rfl t.snippet (List.mem_singleton_self _))
    simp only [Pair.mapSides, hkept, typeChange]
  | added u =>
    have hkept : g u = u := h'.fixed u (hquoted _ rfl u.snippet (List.mem_singleton_self _))
    simp only [Pair.mapSides, hkept, typeChange]
  | both t u =>
    obtain ⟨ht, hu⟩ := sides_of_mem_pairByKey hx
    have hdiff := h.difference?_eq h' (ht t rfl) (hu u rfl) (key_eq_of_both_mem hx)
    simp only [Pair.mapSides, typeChange, hdiff] at hquoted ⊢
    cases hreason : t.difference? p.resolve u p.resolve with
    | none => rfl
    | some reason =>
      rw [hreason] at hquoted
      have hkept : f t = t := h.fixed t (hquoted _ rfl t.snippet List.mem_cons_self)
      have hkept' : g u = u :=
        h'.fixed u (hquoted _ rfl u.snippet (List.mem_cons_of_mem _ (List.mem_singleton_self _)))
      rw [hkept, hkept']

/-- Packages that stand in for one package differ as it differs from itself. -/
theorem diffTypes_eq (h : p.StandsIn q name f) (h' : p.StandsIn q' name g)
    (hsilent : (diffTypes (some p.resolve) (some p.resolve)).SilentOn name) :
    diffTypes (some q.resolve) (some q'.resolve) =
      diffTypes (some p.resolve) (some p.resolve) := by
  rw [diffTypes, diffTypes, h.exported, h'.exported, pairByKey_mapSides h.key h'.key,
    List.filterMap_map]
  exact List.filterMap_congr fun x hx => h.typeChange_eq h' hsilent hx

end Package.StandsIn

/-- A package in which a type is declared through a chain stands in for the one without it. -/
theorem Package.Indirected.standsIn {p r q : Package} {t t' : TypeSpec} {links : List TypeSpec}
    (h : p.Indirected r q t t' links) :
    p.StandsIn q t.key (t'.resolve q.scope).redeclare where
  exported := h.exportedTypes_eq
  key := TypeSpec.key_redeclare _
  fixed _ hkey := TypeSpec.redeclare_of_ne fun hkey' => hkey (hkey'.trans h.key)
  follow := by
    intro u hu
    have hmem : u ∈ p.resolve.types := (List.mem_filter.mp hu).1
    by_cases hkey : u.key = t.key
    · rw [Package.types_resolve] at hmem
      obtain ⟨v, hv, rfl⟩ := List.mem_map.mp hmem
      obtain rfl : v = t := h.eq_of_key hv hkey
      have hkey' : (v.resolve p.scope).key = (t'.resolve q.scope).key := h.key.symm
      rw [TypeSpec.redeclare_of_eq hkey']
      exact h.detour.follow_entry h.key
    · have hne : u.key ≠ (t'.resolve q.scope).key := fun hkey' => hkey (hkey'.trans h.key)
      rw [TypeSpec.redeclare_of_ne hne, h.detour.follow_eq hmem]
      exact ⟨rfl, rfl⟩

/-- **Detours are not noticed.**  If nothing is reported of a type when a package is compared with
itself, then the package may declare the type through a chain of new unexported names: in both
directions nothing is reported of the type, and of the other types what is reported without the
chain. -/
theorem diffTypes_of_indirected {p r q : Package} {t t' : TypeSpec} {links : List TypeSpec}
    (h : p.Indirected r q t t' links)
    (hsilent : (diffTypes (some p.resolve) (some p.resolve)).SilentOn t.key) :
    (diffTypes (some p.resolve) (some q.resolve) = diffTypes (some p.resolve) (some p.resolve) ∧
      (diffTypes (some p.resolve) (some q.resolve)).SilentOn t.key) ∧
    diffTypes (some q.resolve) (some p.resolve) = diffTypes (some p.resolve) (some p.resolve) ∧
      (diffTypes (some q.resolve) (some p.resolve)).SilentOn t.key := by
  have hself := Package.StandsIn.refl p t.key
  have hforth := hself.diffTypes_eq h.standsIn hsilent
  have hback := h.standsIn.diffTypes_eq hself hsilent
  rw [hforth, hback]
  exact ⟨⟨rfl, hsilent⟩, rfl, hsilent⟩

/-- A type declared by a name. -/
def namingType (name : String) (params : List String) (target : String) (line : Nat) : TypeSpec :=
  ⟨⟨name, none⟩, params.map fun param => ⟨[⟨param, none⟩], .ident ⟨"any", none⟩, none⟩, false,
    .ident ⟨target, none⟩, ⟨"clock.go", line, 6⟩⟩

/-- A package with two types that are declared by each other and a third one that cannot be
compared, and with further types before and after them. -/
def clockRelease (before after : List TypeSpec) (stamp : TypeSpec) : Package :=
  ⟨"clock", [⟨"clock.go", "clock", (before ++ [stamp, namingType "Epoch" [] "Stamp" 5,
    ⟨⟨"Dial", none⟩, [], false, .unsupported "dial", ⟨"clock.go", 7, 6⟩⟩] ++ after).map .type⟩]⟩

/-- The release before the detour. -/
def directClock : Package :=
  clockRelease [] [] (namingType "Stamp" ["Zone"] "Epoch" 3)

/-- The release after it, or on the way to it, with one of the two types declared as given. -/
def detouredClock (stamp : TypeSpec) : Package :=
  clockRelease [namingType "tock" ["Zone"] "Epoch" 1] [namingType "tick" [] "tock" 9] stamp

/-- A type that leads back to itself is declared through two more names.  The type that cannot be
compared is reported as before, and nothing else is. -/
theorem diffTypes_of_detouredClock :
    directClock.Indirected (detouredClock (namingType "Stamp" ["Zone"] "Epoch" 3))
      (detouredClock (namingType "Stamp" [] "tick" 3)) (namingType "Stamp" ["Zone"] "Epoch" 3)
      (namingType "Stamp" [] "tick" 3)
      [namingType "tick" [] "tock" 9, namingType "tock" ["Zone"] "Epoch" 1] ∧
    (diffTypes (some directClock.resolve) (some directClock.resolve)).SilentOn "Stamp" ∧
    (diffTypes (some directClock.resolve)
      (some (detouredClock (namingType "Stamp" [] "tick" 3)).resolve)).map
        (fun c => (c.reason, c.snippets.map Snippet.name)) =
      [(.typeChanged, ["Dial", "Dial"])] := by
  have hindirected : directClock.Indirected
      (detouredClock (namingType "Stamp" ["Zone"] "Epoch" 3))
      (detouredClock (namingType "Stamp" [] "tick" 3)) (namingType "Stamp" ["Zone"] "Epoch" 3)
      (namingType "Stamp" [] "tick" 3)
      [namingType "tick" [] "tock" 9, namingType "tock" ["Zone"] "Epoch" 1] :=
    { once := rfl
      key := rfl
      chain := .link rfl rfl (by decide) (.link rfl rfl (by decide) (.last rfl rfl))
      distinct := by decide
      unexported := by decide
      undeclared := by decide
      extended := ⟨[.type (namingType "tock" ["Zone"] "Epoch" 1),
        .type (namingType "tick" [] "tock" 9)], .swap _ _ _,
        .new (.old (.old (.old (.new .nil)))), by decide +kernel, by decide +kernel⟩
      redeclared := rfl }
  have hsilent : (diffTypes (some directClock.resolve) (some directClock.resolve)).SilentOn
      "Stamp" := by decide +kernel
  refine ⟨hindirected, hsilent, ?_⟩
  rw [(diffTypes_of_indirected hindirected hsilent).1.1]
  decide +kernel

end GoSurface
