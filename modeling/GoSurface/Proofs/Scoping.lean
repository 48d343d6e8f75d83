/-
# Which declaration a name stands for

A reference of a resolved package is bound exactly if its name is declared at package level and the
declaration around it does not hide it, and then it is bound to the last declaration of its name.
Resolving adds nothing else to a package, and resolving again changes nothing.

* `Decl.DeclaresAs`, `Package.LastDeclares`: what a package declares under a name;
* `Decl.Hides`: the names that a declaration hides;
* `Package.lookup_scope`: the scope gives the last declaration of every name;
* `Package.erase`: the package without bindings;
* `Package.BoundBy`, `Package.resolve_boundBy_and_idempotent`: what resolving does.
-/
import GoSurface.Proofs.Binding
import GoSurface.Proofs.Erasure
import Mathlib.Data.List.Induction

namespace GoSurface

/-! ## Declared names -/

/-- At package level the declaration gives the name this meaning.  Methods and blank names declare
nothing, and only constants have an ordinal. -/
inductive Decl.DeclaresAs : Decl → String → Binding → Prop
  | func {f : FuncDecl} (hrecv : f.recv = none) :
    DeclaresAs (.func f) f.name.name ⟨.function, f.name.name, none⟩
  | type (t : TypeSpec) : DeclaresAs (.type t) t.name.name ⟨.type, t.name.name, none⟩
  | const {v : ValueSpec} {x : Ident} (hkind : v.kind = .const) (hx : x ∈ v.names)
    (hblank : x.name ≠ "_") : DeclaresAs (.value v) x.name ⟨.constant, x.name, v.ordinal⟩
  | var {v : ValueSpec} {x : Ident} (hkind : v.kind = .var) (hx : x ∈ v.names)
    (hblank : x.name ≠ "_") : DeclaresAs (.value v) x.name ⟨.variable, x.name, none⟩

/-- The last of the declarations that give the name a meaning gives it this one. -/
def Decl.LastDeclares (ds : List Decl) (name : String) (b : Binding) : Prop :=
  ∃ before d after, ds = before ++ d :: after ∧ d.DeclaresAs name b ∧
    ∀ d' ∈ after, ∀ b', ¬ d'.DeclaresAs name b'

/-- What a package-level name stands for, whatever file it is declared in. -/
def Package.LastDeclares (p : Package) (name : String) (b : Binding) : Prop :=
  Decl.LastDeclares p.decls name b

/-- The names that a declaration adds to the scope are those that it declares. -/
theorem Decl.mem_declares {d : Decl} {name : String} {b : Binding} :
    (name, b) ∈ d.declares ↔ d.DeclaresAs name b := by
  constructor
  · intro h
    cases d with
    | func f =>
      simp only [Decl.declares] at h
      split at h
      next hrecv =>
        obtain ⟨rfl, rfl⟩ := Prod.mk.inj (List.mem_singleton.mp h)
        exact .func hrecv
      next => cases h
    | type t =>
      obtain ⟨rfl, rfl⟩ := Prod.mk.inj (List.mem_singleton.mp h)
      exact .type t
    | value v =>
      obtain ⟨x, hx, hpair⟩ := List.mem_map.mp h
      obtain ⟨rfl, rfl⟩ := Prod.mk.inj hpair
      obtain ⟨hx, hblank⟩ := List.mem_filter.mp hx
      rw [decide_eq_true_eq] at hblank
      rw [ValueSpec.binding]
      cases hkind : v.kind with
      | const => exact .const hkind hx hblank
      | var => exact .var hkind hx hblank
  · intro h
    cases h with
    | func hrecv => simp [Decl.declares, hrecv]
    | type t => simp [Decl.declares]
    | const hkind hx hblank | var hkind hx hblank =>
      refine List.mem_map.mpr ⟨_, List.mem_filter.mpr ⟨hx, by simpa using hblank⟩, ?_⟩
      rw [ValueSpec.binding, hkind]
      rfl

/-- A declaration gives a name one meaning. -/
theorem Decl.DeclaresAs.unique {d : Decl} {name : String} {b b' : Binding}
    (h : d.DeclaresAs name b) (h' : d.DeclaresAs name b') : b = b' := by
  cases h with
  | func hrecv => cases h'; rfl
  | type t => cases h'; rfl
  | const hkind hx hblank =>
    generalize Ident.name _ = name at h' ⊢
    cases h' with
    | const => rfl
    | var hkind' => rw [hkind] at hkind'; cases hkind'
  | var hkind hx hblank =>
    generalize Ident.name _ = name at h' ⊢
    cases h' with
    | const hkind' => rw [hkind] at hkind'; cases hkind'
    | var => rfl

/-- Within one declaration it does not matter which entry is found. -/
theorem Decl.lookup_declares {d : Decl} {name : String} {b : Binding} :
    d.declares.reverse.lookup name = some b ↔ d.DeclaresAs name b := by
  constructor
  · intro h
    exact Decl.mem_declares.mp (List.mem_reverse.mp (mem_of_lookup h))
  · intro h
    have hfound := lookup_ne_none (List.mem_reverse.mpr (Decl.mem_declares.mpr h))
    obtain ⟨b', hb'⟩ := Option.ne_none_iff_exists'.mp hfound
    have h' := Decl.mem_declares.mp (List.mem_reverse.mp (mem_of_lookup hb'))
    rw [hb', h'.unique h]

/-- One more declaration gives its own names their meaning and leaves all others as they are. -/
theorem Decl.lastDeclares_concat {ds : List Decl} {d : Decl} {name : String} {b : Binding} :
    Decl.LastDeclares (ds ++ [d]) name b ↔
      d.DeclaresAs name b ∨ (∀ b', ¬ d.DeclaresAs name b') ∧ Decl.LastDeclares ds name b := by
  constructor
  · rintro ⟨before, d', after, heq, hd', hlast⟩
    rcases List.eq_nil_or_concat' after with rfl | ⟨after, e, rfl⟩
    · obtain ⟨rfl, hsingle⟩ := List.append_inj' heq rfl
      obtain rfl := List.singleton_inj.mp hsingle
      exact Or.inl hd'
    · rw [← List.cons_append, ← List.append_assoc] at heq
      obtain ⟨rfl, hsingle⟩ := List.append_inj' heq rfl
      obtain rfl := List.singleton_inj.mp hsingle
      refine Or.inr ⟨hlast d (by simp), before, d', after, rfl, hd', ?_⟩
      exact fun c hc => hlast c (by simp [hc])
  · rintro (hd | ⟨hd, before, d', after, rfl, hd', hlast⟩)
    · exact ⟨ds, d, [], rfl, hd, by simp⟩
    · refine ⟨before, d', after ++ [d], by simp, hd', ?_⟩
      intro c hc
      rcases List.mem_append.mp hc with hc | hc
      · exact hlast c hc
      · exact List.mem_singleton.mp hc ▸ hd

/-- A name stands for its last declaration. -/
theorem Package.lookup_scope {p : Package} {name : String} {b : Binding} :
    p.scope.lookup name = some b ↔ p.LastDeclares name b := by
  rw [Package.scope, Package.LastDeclares]
  induction p.decls using List.reverseRecOn with
  | nil => simp [Decl.LastDeclares]
  | append_singleton ds d ih =>
    rw [List.flatMap_append, List.flatMap_singleton, List.reverse_append, List.lookup_append,
      Decl.lastDeclares_concat, Option.or_eq_some_iff, Decl.lookup_declares, ih,
      Option.eq_none_iff_forall_ne_some]
    simp only [ne_eq, Decl.lookup_declares]

/-- A name stands for something exactly if some declaration of the package gives it a meaning. -/
theorem Package.exists_lastDeclares_iff {p : Package} {name : String} :
    (∃ b, p.LastDeclares name b) ↔ ∃ d ∈ p.decls, ∃ b, d.DeclaresAs name b := by
  constructor
  · rintro ⟨b, before, d, after, hdecls, hd, -⟩
    exact ⟨d, by simp [hdecls], b, hd⟩
  · rintro ⟨d, hd, b, hb⟩
    have hfound := lookup_ne_none (Package.mem_scope.mpr ⟨d, hd, Decl.mem_declares.mpr hb⟩)
    obtain ⟨b', hb'⟩ := Option.ne_none_iff_exists'.mp hfound
    exact ⟨b', Package.lookup_scope.mp hb'⟩

/-! ## Hidden names -/

/-- The first tree is the second one behind pointers and parentheses. -/
inductive Expr.Wraps : Expr → Expr → Prop
  | refl (e : Expr) : Wraps e e
  | pointer {e base : Expr} (h : Wraps e base) : Wraps (.pointer e) base
  | paren {e base : Expr} (h : Wraps e base) : Wraps (.paren e) base

/-- Within the declaration the name is a type parameter, or the name that a receiver gives to a type
argument of its base type. -/
inductive Decl.Hides : Decl → String → Prop
  | typeParam {t : TypeSpec} {field : Field} {x : Ident} (hfield : field ∈ t.typeParams)
    (hx : x ∈ field.names) : Hides (.type t) x.name
  | funcParam {f : FuncDecl} {field : Field} {x : Ident} (hfield : field ∈ f.sig.typeParams)
    (hx : x ∈ field.names) : Hides (.func f) x.name
  | receiver {f : FuncDecl} {recv : Fields} {field : Field} {operand : Expr} {args : List Expr}
    {x : Ident} (hrecv : f.recv = some recv) (hfield : field ∈ recv)
    (hwraps : field.type.Wraps (.index operand args)) (hx : .ident x ∈ args) :
    Hides (.func f) x.name

/-- The names that a declaration hides. -/
def Decl.hidden : Decl → List String
  | .func f => f.hidden
  | .type t => Fields.declaredNames t.typeParams
  | .value _ => []

/-- Stripping a type removes the pointers and parentheses around it. -/
theorem Expr.stripPointers_eq_index_iff {e operand : Expr} {args : List Expr} :
    e.stripPointers = .index operand args ↔ e.Wraps (.index operand args) := by
  constructor
  · intro h
    induction e using Expr.childInduction with
    | step e ih =>
      cases e with
      | pointer e => exact .pointer (ih e (List.mem_singleton_self e) h)
      | paren e => exact .paren (ih e (List.mem_singleton_self e) h)
      | index => exact h ▸ .refl _
      | _ => cases h
  · intro h
    generalize hbase : Expr.index operand args = base at h
    induction h with
    | refl e => rw [← hbase]; rfl
    | pointer _ ih | paren _ ih => exact ih hbase

theorem Fields.mem_declaredNames {fs : Fields} {name : String} :
    name ∈ Fields.declaredNames fs ↔ ∃ field ∈ fs, ∃ x ∈ field.names, x.name = name := by
  simp only [Fields.declaredNames, List.mem_flatMap, List.mem_map]

/-- The names that a receiver gives to type arguments. -/
theorem Expr.mem_receiverParams {e : Expr} {name : String} :
    name ∈ e.receiverParams ↔ ∃ operand args x,
      e.Wraps (.index operand args) ∧ .ident x ∈ args ∧ x.name = name := by
  simp only [← Expr.stripPointers_eq_index_iff, Expr.receiverParams]
  constructor
  · intro h
    split at h
    next operand args hindex =>
      obtain ⟨arg, harg, hname⟩ := List.mem_filterMap.mp h
      cases arg with
      | ident x => exact ⟨operand, args, x, hindex, harg, Option.some.inj hname⟩
      | _ => cases hname
    next => cases h
  · rintro ⟨operand, args, x, hindex, hx, rfl⟩
    rw [hindex]
    exact List.mem_filterMap.mpr ⟨.ident x, hx, rfl⟩

/-- The hidden names as they are listed. -/
theorem Decl.mem_hidden {d : Decl} {name : String} : name ∈ d.hidden ↔ d.Hides name := by
  constructor
  · intro h
    cases d with
    | func f =>
      rcases List.mem_append.mp h with h | h
      · obtain ⟨field, hfield, x, hx, rfl⟩ := Fields.mem_declaredNames.mp h
        exact .funcParam hfield hx
      · split at h
        next recv hrecv =>
          obtain ⟨field, hfield, hname⟩ := List.mem_flatMap.mp h
          obtain ⟨operand, args, x, hwraps, hx, rfl⟩ := Expr.mem_receiverParams.mp hname
          exact .receiver hrecv hfield hwraps hx
        next => cases h
    | type t =>
      obtain ⟨field, hfield, x, hx, rfl⟩ := Fields.mem_declaredNames.mp h
      exact .typeParam hfield hx
    | value v => cases h
  · intro h
    cases h with
    | typeParam hfield hx => exact Fields.mem_declaredNames.mpr ⟨_, hfield, _, hx, rfl⟩
    | funcParam hfield hx =>
      exact List.mem_append_left _ (Fields.mem_declaredNames.mpr ⟨_, hfield, _, hx, rfl⟩)
    | receiver hrecv hfield hwraps hx =>
      refine List.mem_append_right _ ?_
      rw [hrecv]
      exact List.mem_flatMap.mpr
        ⟨_, hfield, Expr.mem_receiverParams.mpr ⟨_, _, _, hwraps, hx, rfl⟩⟩

/-! ## Resolving a declaration -/

/-- A declaration with the references in its trees replaced. -/
def Decl.mapRefs (f : Ident → Ident) : Decl → Decl
  | .func d => .func { d with recv := d.recv.map (Fields.mapRefs f), sig := d.sig.mapRefs f }
  | .type t => .type
    { t with typeParams := Fields.mapRefs f t.typeParams, type := t.type.mapRefs f }
  | .value v => .value
    { v with type := Expr.mapRefsOption f v.type, values := Expr.mapRefsList f v.values }

/-- A declaration with its own names bound to it. -/
def Decl.bindNames : Decl → Decl
  | .func f => .func
    { f with name := { f.name with binding := some ⟨.function, f.name.name, none⟩ } }
  | .type t => .type
    { t with name := { t.name with binding := some ⟨.type, t.name.name, none⟩ } }
  | .value v => .value
    { v with names := v.names.map fun x => { x with binding := some (v.binding x.name) } }

/-- Resolving binds the references that are not hidden, and the declared names. -/
theorem Decl.resolve_eq (s : Scope) (d : Decl) :
    d.resolve s = (d.mapRefs (s.bind d.hidden)).bindNames := by
  cases d with
  | func f => rfl
  | type t => rfl
  | value v =>
    simp only [Decl.mapRefs, Expr.mapRefsOption_eq_map, Expr.mapRefsList_eq_map]
    rfl

def Decl.members : Decl → List Ident
  | .func f => Fields.members (f.recv.getD []) ++ f.sig.members
  | .type t => Fields.members t.typeParams ++ t.type.members
  | .value v => Expr.membersOption v.type ++ Expr.membersList v.values

/-- References and members are identifiers of a declaration. -/
theorem Decl.mem_idents_of {d : Decl} {x : Ident} (h : x ∈ d.refs ∨ x ∈ d.members) :
    x ∈ d.idents := by
  cases d with
  | func f =>
    simp only [Decl.refs, Decl.members, List.mem_append] at h
    simp only [Decl.idents, List.mem_cons, List.mem_append, Fields.mem_idents_iff,
      Signature.mem_idents_iff]
    tauto
  | type t =>
    simp only [Decl.refs, Decl.members, List.mem_append] at h
    simp only [Decl.idents, List.mem_cons, List.mem_append, Fields.mem_idents_iff,
      Expr.mem_idents_iff]
    tauto
  | value v =>
    simp only [Decl.refs, Decl.members, List.mem_append] at h
    simp only [Decl.idents, List.mem_append, Expr.mem_identsOption_iff, Expr.mem_identsList_iff]
    tauto

theorem Fields.getD_map_mapRefs (f : Ident → Ident) (recv : Option Fields) :
    (recv.map (Fields.mapRefs f)).getD [] = Fields.mapRefs f (recv.getD []) := by
  cases recv <;> rfl

/-- Resolving binds each reference. -/
theorem Decl.refs_resolve (s : Scope) (d : Decl) :
    (d.resolve s).refs = d.refs.map (s.bind d.hidden) := by
  rw [Decl.resolve_eq]
  cases d with
  | func f =>
    simp only [Decl.mapRefs, Decl.bindNames, Decl.refs, Fields.getD_map_mapRefs,
      Fields.refs_mapRefs, Signature.refs_mapRefs, List.map_append]
  | type t =>
    simp only [Decl.mapRefs, Decl.bindNames, Decl.refs, Fields.refs_mapRefs, Expr.refs_mapRefs,
      List.map_append]
  | value v =>
    simp only [Decl.mapRefs, Decl.bindNames, Decl.refs, Expr.refsOption_mapRefs,
      Expr.refsList_mapRefs, List.map_append]

/-- Resolving leaves members as they are. -/
theorem Decl.members_resolve (s : Scope) (d : Decl) : (d.resolve s).members = d.members := by
  rw [Decl.resolve_eq]
  cases d with
  | func f =>
    simp only [Decl.mapRefs, Decl.bindNames, Decl.members, Fields.getD_map_mapRefs,
      Fields.members_mapRefs, Signature.members_mapRefs]
  | type t =>
    simp only [Decl.mapRefs, Decl.bindNames, Decl.members, Fields.members_mapRefs,
      Expr.members_mapRefs]
  | value v =>
    simp only [Decl.mapRefs, Decl.bindNames, Decl.members, Expr.membersOption_mapRefs,
      Expr.membersList_mapRefs]

/-- An open reference is bound to what its name stands for, unless the name is hidden. -/
theorem Scope.binding_bind {s : Scope} {hidden : List String} {x : Ident} {b : Binding}
    (h : x.isBound = false) :
    (s.bind hidden x).binding = some b ↔ x.name ∉ hidden ∧ s.lookup x.name = some b := by
  have hopen : x.binding = none := by
    cases hx : x.binding with
    | none => rfl
    | some c => simp [Ident.isBound, hx] at h
  rw [Scope.bind]
  by_cases hhidden : x.name ∈ hidden
  · simp [hhidden, hopen]
  · cases hlookup : s.lookup x.name <;> simp [hhidden, hopen]

/-! ## Resolving again -/

/-- Stripping goes along with replacing references. -/
theorem Expr.stripPointers_mapRefs (f : Ident → Ident) (e : Expr) :
    (e.mapRefs f).stripPointers = e.stripPointers.mapRefs f := by
  induction e using Expr.childInduction with
  | step e ih =>
    cases e with
    | pointer e | paren e => exact ih e (List.mem_singleton_self e)
    | _ => rfl

/-- The names that a receiver gives to type arguments are read off their spelling. -/
theorem Expr.receiverParams_mapRefs {f : Ident → Ident} (hf : ∀ x, (f x).name = x.name)
    (e : Expr) : (e.mapRefs f).receiverParams = e.receiverParams := by
  have hargs : ∀ arg : Expr, (arg.mapRefs f).identName? = arg.identName? := by
    intro arg
    cases arg with
    | ident x => exact congrArg some (hf x)
    | _ => rfl
  rw [Expr.receiverParams, Expr.receiverParams, Expr.stripPointers_mapRefs]
  cases e.stripPointers with
  | index operand args =>
    simp only [Expr.mapRefs, Expr.mapRefsList_eq_map, List.filterMap_map]
    exact List.filterMap_congr fun arg _ => hargs arg
  | _ => rfl

/-- A type-parameter list keeps its names. -/
theorem Fields.declaredNames_mapRefs (f : Ident → Ident) (fs : Fields) :
    Fields.declaredNames (Fields.mapRefs f fs) = Fields.declaredNames fs := by
  rw [Fields.mapRefs_eq_map, Fields.declaredNames, List.flatMap_map]
  refine List.flatMap_congr ?_
  rintro ⟨xs, t, tag⟩ -
  rfl

/-- Resolving changes nothing about what is hidden. -/
theorem Decl.hidden_resolve (s : Scope) (d : Decl) : (d.resolve s).hidden = d.hidden := by
  cases d with
  | func f =>
    obtain ⟨recv, name, ⟨ts, ps, rs⟩, position⟩ := f
    have hrecv : ∀ (g : Ident → Ident) (_ : ∀ x, (g x).name = x.name) (fs : Fields),
        (Fields.mapRefs g fs).flatMap (·.type.receiverParams) =
          fs.flatMap (·.type.receiverParams) := by
      intro g hg fs
      rw [Fields.mapRefs_eq_map, List.flatMap_map]
      refine List.flatMap_congr ?_
      rintro ⟨xs, t, tag⟩ -
      exact Expr.receiverParams_mapRefs hg t
    cases recv with
    | none =>
      simp only [Decl.resolve, FuncDecl.resolve, Decl.hidden, FuncDecl.hidden, Signature.mapRefs,
        Fields.declaredNames_mapRefs, Option.map_none]
    | some recv =>
      simp only [Decl.resolve, FuncDecl.resolve, Decl.hidden, FuncDecl.hidden, Signature.mapRefs,
        Fields.declaredNames_mapRefs, Option.map_some, hrecv _ (Scope.name_bind s _)]
  | type t => exact Fields.declaredNames_mapRefs _ _
  | value v => rfl

/-- Resolving changes nothing about what is declared. -/
theorem Decl.declares_resolve (s : Scope) (d : Decl) : (d.resolve s).declares = d.declares := by
  cases d with
  | func f => cases hrecv : f.recv <;> simp [Decl.resolve, FuncDecl.resolve, Decl.declares, hrecv]
  | type t => rfl
  | value v =>
    simp only [Decl.resolve, ValueSpec.resolve, Decl.declares, List.filter_map, List.map_map]
    rfl

theorem Package.scope_resolve (p : Package) : p.resolve.scope = p.scope := by
  rw [Package.scope, Package.decls_resolve, List.flatMap_map, Package.scope]
  congr 1
  exact List.flatMap_congr fun d _ => d.declares_resolve p.scope

/-- Binding twice is binding once. -/
theorem Scope.bind_comp_bind (s : Scope) (hidden : List String) :
    s.bind hidden ∘ s.bind hidden = s.bind hidden := by
  funext x
  rw [Function.comp_apply]
  by_cases hhidden : x.name ∈ hidden
  · simp [Scope.bind, hhidden]
  · cases hlookup : s.lookup x.name <;> simp [Scope.bind, hhidden, hlookup]

/-- Replacing references twice, declaration by declaration. -/
theorem Decl.mapRefs_mapRefs (f g : Ident → Ident) (d : Decl) :
    (d.mapRefs f).mapRefs g = d.mapRefs (g ∘ f) := by
  cases d with
  | func d =>
    have hrecv : (d.recv.map (Fields.mapRefs f)).map (Fields.mapRefs g) =
        d.recv.map (Fields.mapRefs (g ∘ f)) := by
      rw [Option.map_map]
      exact Option.map_congr fun fs _ => Fields.mapRefs_mapRefs f g fs
    simp only [Decl.mapRefs, hrecv, Signature.mapRefs_mapRefs]
  | type t => simp only [Decl.mapRefs, Fields.mapRefs_mapRefs, Expr.mapRefs_mapRefs]
  | value v => simp only [Decl.mapRefs, Expr.mapRefsOption_mapRefs, Expr.mapRefsList_mapRefs]

theorem Decl.mapRefs_bindNames (f : Ident → Ident) (d : Decl) :
    d.bindNames.mapRefs f = (d.mapRefs f).bindNames := by
  cases d <;> rfl

/-- Declared names are bound once. -/
theorem Decl.bindNames_bindNames (d : Decl) : d.bindNames.bindNames = d.bindNames := by
  cases d with
  | func f => rfl
  | type t => rfl
  | value v =>
    simp only [Decl.bindNames, List.map_map]
    rfl

/-- Resolving a resolved declaration changes nothing. -/
theorem Decl.resolve_resolve (s : Scope) (d : Decl) : (d.resolve s).resolve s = d.resolve s := by
  rw [Decl.resolve_eq s (d.resolve s), Decl.hidden_resolve, Decl.resolve_eq s d,
    Decl.mapRefs_bindNames, Decl.mapRefs_mapRefs, Scope.bind_comp_bind, Decl.bindNames_bindNames]

/-! ## Bindings erased -/

def Decl.erase : Decl → Decl
  | .func f => .func
    { f with recv := f.recv.map Fields.erase, name := f.name.unbind, sig := f.sig.erase }
  | .type t => .type
    { t with name := t.name.unbind, typeParams := Fields.erase t.typeParams, type := t.type.erase }
  | .value v => .value
    { v with
      names := v.names.map Ident.unbind
      type := Expr.eraseOption v.type
      values := Expr.eraseList v.values }

def Package.erase (p : Package) : Package :=
  { p with files := p.files.map fun f => { f with decls := f.decls.map Decl.erase } }

/-- Without bindings a resolved declaration is the declaration. -/
theorem Decl.erase_resolve (s : Scope) (d : Decl) : (d.resolve s).erase = d.erase := by
  rw [Decl.resolve_eq]
  cases d with
  | func f =>
    have hname := Scope.name_bind s f.hidden
    have hrecv : (f.recv.map (Fields.mapRefs (s.bind f.hidden))).map Fields.erase =
        f.recv.map Fields.erase := by
      rw [Option.map_map]
      exact Option.map_congr fun fs _ => Fields.erase_mapRefs hname fs
    simp only [Decl.mapRefs, Decl.bindNames, Decl.erase, Decl.hidden, hrecv,
      Signature.erase_mapRefs hname f.sig, Ident.unbind]
  | type t =>
    have hname := Scope.name_bind s (Fields.declaredNames t.typeParams)
    simp only [Decl.mapRefs, Decl.bindNames, Decl.erase, Decl.hidden, Fields.erase_mapRefs hname,
      Expr.erase_mapRefs hname, Ident.unbind]
  | value v =>
    have hname := Scope.name_bind s []
    simp only [Decl.mapRefs, Decl.bindNames, Decl.erase, Decl.hidden,
      Expr.eraseOption_mapRefs hname, Expr.eraseList_mapRefs hname, List.map_map]
    rfl

/-- A declaration that binds nothing has nothing to erase. -/
theorem Decl.erase_of_open {d : Decl} (h : ∀ x ∈ d.idents, x.isBound = false) : d.erase = d := by
  cases d with
  | func f =>
    simp only [Decl.idents, List.forall_mem_cons, List.forall_mem_append] at h
    obtain ⟨hname, hrecv, hsig⟩ := h
    have hreceiver : f.recv.map Fields.erase = f.recv := by
      cases hf : f.recv with
      | none => rfl
      | some fs =>
        rw [hf] at hrecv
        exact congrArg some (Fields.erase_of_open fs hrecv)
    simp only [Decl.erase, hreceiver, Ident.unbind_of_open hname, Signature.erase_of_open _ hsig]
  | type t =>
    simp only [Decl.idents, List.forall_mem_cons, List.forall_mem_append] at h
    obtain ⟨hname, hparams, htype⟩ := h
    simp only [Decl.erase, Ident.unbind_of_open hname, Fields.erase_of_open _ hparams,
      Expr.erase_of_open _ htype]
  | value v =>
    simp only [Decl.idents, List.forall_mem_append] at h
    obtain ⟨⟨hnames, htype⟩, hvalues⟩ := h
    simp only [Decl.erase, map_unbind_of_open hnames, Expr.eraseOption_of_open _ htype,
      Expr.eraseList_of_open _ hvalues]

/-- All that is printed of a declaration: the declaration itself and the lists and trees in it. -/
def Decl.printouts : Decl → List String
  | .func f =>
    [f.text, Fields.paramsText (f.recv.getD []), f.sig.text, Fields.typeParamsText f.sig.typeParams,
      Fields.paramsText f.sig.params, Fields.resultsText f.sig.results]
  | .type t => [t.text, Fields.typeParamsText t.typeParams, t.type.declText, t.type.text]
  | .value v => v.text :: (v.type.toList ++ v.values).map Expr.text

/-- The right-hand side of a type declaration is printed without bindings. -/
theorem Expr.declText_erase (e : Expr) : e.erase.declText = e.declText := by
  have htext := e.text_erase
  cases e with
  | struct fs => simp only [Expr.erase, Expr.declText, Fields.texts_erase]
  | interface fs => simp only [Expr.erase, Expr.declText, Fields.elemTexts_erase]
  | _ => exact htext

/-- Bindings are not printed. -/
theorem Decl.printouts_erase (d : Decl) : d.erase.printouts = d.printouts := by
  cases d with
  | func f =>
    obtain ⟨recv, name, ⟨ts, ps, rs⟩, position⟩ := f
    have hsig := Signature.text_erase ⟨ts, ps, rs⟩
    simp only [Signature.erase] at hsig
    cases recv <;>
      simp only [Decl.erase, Decl.printouts, FuncDecl.text, Ident.unbind, Option.map_none,
        Option.map_some, Option.getD_none, Option.getD_some, Fields.paramsText,
        Fields.typeParamsText, Signature.erase, hsig, Fields.texts_erase, Fields.resultsText_erase]
  | type t =>
    simp only [Decl.erase, Decl.printouts, TypeSpec.text, Ident.unbind, Fields.typeParamsText,
      Fields.texts_erase, Expr.declText_erase, Expr.text_erase]
  | value v =>
    obtain ⟨kind, names, type, values, implicit, ordinal, position⟩ := v
    have htexts : Expr.text ∘ Expr.erase = Expr.text := funext Expr.text_erase
    cases type <;>
      simp [Decl.erase, Decl.printouts, ValueSpec.text, namesText_unbind, Expr.texts_eq_map,
        Expr.eraseList_eq_map, Expr.eraseOption, Expr.text_erase, htexts]

theorem Decl.printouts_resolve (s : Scope) (d : Decl) :
    (d.resolve s).printouts = d.printouts := by
  rw [← Decl.printouts_erase, Decl.erase_resolve, Decl.printouts_erase]

/-- Without bindings a resolved package is the package. -/
theorem Package.erase_resolve (p : Package) : p.resolve.erase = p.erase := by
  have hdecls : ∀ ds : List Decl,
      (ds.map (Decl.resolve p.scope)).map Decl.erase = ds.map Decl.erase := by
    intro ds
    rw [List.map_map]
    exact List.map_congr_left fun d _ => d.erase_resolve p.scope
  simp only [Package.resolve, Package.erase, List.map_map, Function.comp_def, hdecls]

/-- A package that binds nothing has nothing to erase. -/
theorem Package.Unbound.erase {p : Package} (h : p.Unbound) : p.erase = p := by
  have hfile : ∀ f ∈ p.files, f.decls.map Decl.erase = f.decls := by
    intro f hf
    have hopen : ∀ d ∈ f.decls, d.erase = d := by
      intro d hd
      exact Decl.erase_of_open (h d (List.mem_flatMap.mpr ⟨f, hf, hd⟩))
    rw [List.map_congr_left hopen, List.map_id']
  have hfiles : (p.files.map fun f => { f with decls := f.decls.map Decl.erase }) = p.files := by
    rw [List.map_congr_left fun f hf => by rw [hfile f hf], List.map_id']
  rw [Package.erase, hfiles]

/-! ## Resolving a package -/

/-- The second package is the first one with its names bound, each to what it stands for. -/
structure Package.BoundBy (p q : Package) : Prop where
  /-- A reference is bound if some file declares its name and the declaration it is in does not
  hide it. -/
  isBound_iff : ∀ d ∈ q.decls, ∀ x ∈ d.refs,
    x.isBound = true ↔ (∃ d' ∈ p.decls, ∃ b, d'.DeclaresAs x.name b) ∧ ¬ d.Hides x.name
  /-- A bound reference stands for the last declaration of its name. -/
  last : ∀ d ∈ q.decls, ∀ x ∈ d.refs, ∀ b, x.binding = some b → p.LastDeclares x.name b
  func_name : ∀ f, .func f ∈ q.decls → f.name.binding = some ⟨.function, f.name.name, none⟩
  type_name : ∀ t, .type t ∈ q.decls → t.name.binding = some ⟨.type, t.name.name, none⟩
  /-- Constants carry their ordinals, variables none. -/
  value_name : ∀ v, .value v ∈ q.decls → ∀ x ∈ v.names, x.binding =
    some ⟨v.kind.declKind, x.name, if v.kind = .const then v.ordinal else none⟩
  members : ∀ d ∈ q.decls, ∀ x ∈ d.members, x.isBound = false
  erase : q.erase = p
  printouts : q.decls.map Decl.printouts = p.decls.map Decl.printouts

theorem Ident.isBound_iff {x : Ident} : x.isBound = true ↔ ∃ b, x.binding = some b := by
  rw [Ident.isBound, Option.isSome_iff_exists]

/-- The references of a resolved package that bound nothing before. -/
theorem Package.Unbound.binding_resolve {p : Package} (h : p.Unbound) {d : Decl}
    (hd : d ∈ p.resolve.decls) {x : Ident} (hx : x ∈ d.refs) {b : Binding} :
    x.binding = some b ↔ ¬ d.Hides x.name ∧ p.LastDeclares x.name b := by
  rw [Package.decls_resolve] at hd
  obtain ⟨d₀, hd₀, rfl⟩ := List.mem_map.mp hd
  rw [Decl.refs_resolve] at hx
  obtain ⟨x₀, hx₀, rfl⟩ := List.mem_map.mp hx
  have hopen := h d₀ hd₀ x₀ (Decl.mem_idents_of (Or.inl hx₀))
  rw [Scope.binding_bind hopen, Scope.name_bind, ← Decl.mem_hidden, Decl.hidden_resolve,
    Package.lookup_scope]

/-- The names that a resolved package declares are bound to their declarations. -/
theorem Package.bindNames_of_mem_resolve {p : Package} {d : Decl} (hd : d ∈ p.resolve.decls) :
    d.bindNames = d := by
  rw [Package.decls_resolve] at hd
  obtain ⟨d, -, rfl⟩ := List.mem_map.mp hd
  rw [Decl.resolve_eq, Decl.bindNames_bindNames]

/-- Resolving does not change what is printed of a package. -/
theorem Package.printouts_resolve (p : Package) :
    p.resolve.decls.map Decl.printouts = p.decls.map Decl.printouts := by
  rw [Package.decls_resolve, List.map_map]
  exact List.map_congr_left fun d _ => d.printouts_resolve p.scope

/-- Resolving binds the names of a package that binds none exactly as they are declared, and
resolving any package again changes nothing. -/
theorem Package.resolve_boundBy_and_idempotent (p : Package) :
    (p.Unbound → p.BoundBy p.resolve) ∧ p.resolve.resolve = p.resolve := by
  constructor
  · intro h
    refine ⟨?_, ?_, ?_, ?_, ?_, ?_, p.erase_resolve.trans h.erase, p.printouts_resolve⟩
    · intro d hd x hx
      rw [Ident.isBound_iff, ← Package.exists_lastDeclares_iff, and_comm, ← exists_and_left]
      exact exists_congr fun b => h.binding_resolve hd hx
    · intro d hd x hx b hb
      exact ((h.binding_resolve hd hx).mp hb).2
    · intro f hf
      have hname := congrArg FuncDecl.name (Decl.func.inj (Package.bindNames_of_mem_resolve hf))
      exact (congrArg Ident.binding hname).symm
    · intro t ht
      have hname := congrArg TypeSpec.name (Decl.type.inj (Package.bindNames_of_mem_resolve ht))
      exact (congrArg Ident.binding hname).symm
    · intro v hv x hx
      have hnames := congrArg ValueSpec.names (Decl.value.inj (Package.bindNames_of_mem_resolve hv))
      rw [← hnames] at hx
      obtain ⟨y, -, rfl⟩ := List.mem_map.mp hx
      cases hkind : v.kind <;> simp [ValueSpec.binding, hkind]
    · intro d hd x hx
      rw [Package.decls_resolve] at hd
      obtain ⟨d₀, hd₀, rfl⟩ := List.mem_map.mp hd
      rw [Decl.members_resolve] at hx
      exact h d₀ hd₀ x (Decl.mem_idents_of (Or.inr hx))
  · rw [Package.resolve, Package.scope_resolve]
    simp only [Package.resolve, List.map_map, Function.comp_def, Decl.resolve_resolve]

/-- Two files: `T` is a type parameter of `List` and names the type argument in the receiver of
`Put`, and it is declared twice at package level, last as a constant. -/
def parameterNamedLikeConstant : Package :=
  let named (name : String) : Expr := .ident ⟨name, none⟩
  let method : FuncDecl :=
    { recv := some [⟨[⟨"l", none⟩], .pointer (.paren (.index (named "List") [named "T"])), none⟩]
      name := ⟨"Put", none⟩
      sig := ⟨[], [⟨[⟨"x", none⟩], named "T", none⟩], [⟨[], named "Size", none⟩]⟩
      position := ⟨"a.go", 3, 1⟩ }
  let list : TypeSpec :=
    { name := ⟨"List", none⟩
      typeParams := [⟨[⟨"T", none⟩], named "any", none⟩]
      isAlias := false
      type := .struct [⟨[⟨"T", none⟩], .slice (named "T"), none⟩]
      position := ⟨"a.go", 5, 1⟩ }
  let size : TypeSpec :=
    ⟨⟨"Size", none⟩, [], false, .array (named "T") (named "int"), ⟨"b.go", 3, 1⟩⟩
  let first : TypeSpec := ⟨⟨"T", none⟩, [], true, named "Size", ⟨"a.go", 7, 1⟩⟩
  let last : ValueSpec :=
    ⟨.const, [⟨"T", none⟩], none, [named "iota"], false, some 2, ⟨"b.go", 5, 1⟩⟩
  ⟨"p", [⟨"a.go", "p", [.func method, .type list, .type first]⟩,
    ⟨"b.go", "p", [.type size, .value last]⟩]⟩

/-- Of the four references by the name `T` only the array length stands for the constant. -/
theorem parameterNamedLikeConstant_boundBy :
    parameterNamedLikeConstant.Unbound ∧
      parameterNamedLikeConstant.BoundBy parameterNamedLikeConstant.resolve ∧
      (parameterNamedLikeConstant.resolve.decls.map fun d => d.refs.map Ident.binding) =
        [[some ⟨.type, "List", none⟩, none, none, some ⟨.type, "Size", none⟩], [none, none],
          [some ⟨.type, "Size", none⟩], [some ⟨.constant, "T", some 2⟩, none], [none]] :=
  ⟨by decide, (Package.resolve_boundBy_and_idempotent parameterNamedLikeConstant).1 (by decide),
    by decide⟩

end GoSurface
