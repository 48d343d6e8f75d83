/-
# Which names a type declaration reaches

The type that a declaration stands for is found by following names, one hop for each name.  The
number of hops is bounded by the number of types in the package, but the bound never cuts a walk
short, so the result depends only on the declarations of the names that are reached.

* `Package.Reaches`: a name at the end of some hops;
* `Package.followFrom_add`: further hops beyond the bound find nothing new;
* `Package.walk`: following names to the end, with the bound out of sight;
* `Package.follow_congr`: packages that agree on the reached names give the same type;
* `Package.Rewrites.follow_eq`: rewriting declarations rewrites what they stand for.
-/
import GoSurface.Compare.Alias

namespace GoSurface

namespace Package

/-- A name that a type leads to after one or more hops. -/
inductive Reaches (p : Package) : Expr → String → Prop
  | here {e : Expr} {name : String} (h : e.namedType? = some name) : Reaches p e name
  | hop {e : Expr} {name next : String} {t : TypeSpec} (h : e.namedType? = some next)
      (ht : p.typeSpec? next = some t) (hrest : Reaches p t.type name) : Reaches p e name

/-- A hop leads to the first declaration of the name, which is new. -/
theorem next?_eq_some_iff {p : Package} {visited : List String} {e : Expr} {name : String}
    {t : TypeSpec} :
    p.next? visited e = some (name, t) ↔
      e.namedType? = some name ∧ name ∉ visited ∧ p.typeSpec? name = some t := by
  unfold next?
  cases e.namedType? with
  | none => simp
  | some n =>
    by_cases hn : n ∈ visited
    · simp only [hn, if_true, Option.some.injEq, reduceCtorEq, false_iff]
      rintro ⟨rfl, hnew, -⟩
      exact hnew hn
    · simp only [hn, if_false, Option.some.injEq]
      constructor
      · intro h
        cases ht : p.typeSpec? n with
        | none => simp [ht] at h
        | some u =>
          simp only [ht, Option.some.injEq, Prod.mk.injEq] at h
          obtain ⟨rfl, rfl⟩ := h
          exact ⟨rfl, hn, ht⟩
      · rintro ⟨rfl, -, ht⟩
        simp [ht]

/-- There is no hop if a type leads nowhere, to a name met before or to one that is not declared. -/
theorem next?_eq_none_iff {p : Package} {visited : List String} {e : Expr} :
    p.next? visited e = none ↔
      ∀ name, e.namedType? = some name → name ∉ visited → p.typeSpec? name = none := by
  rw [Option.eq_none_iff_forall_ne_some]
  constructor
  · intro h name hname hnew
    cases hfind : p.typeSpec? name with
    | none => rfl
    | some t => exact absurd (next?_eq_some_iff.mpr ⟨hname, hnew, hfind⟩) (h (name, t))
  · rintro h ⟨name, t⟩ hstep
    obtain ⟨hname, hnew, hfind⟩ := next?_eq_some_iff.mp hstep
    rw [h name hname hnew] at hfind
    cases hfind

/-! ## The bound -/

/-- The number of type declarations whose names have not been met. -/
def unmet (p : Package) (visited : List String) : Nat :=
  (p.types.filter fun t => t.name.name ∉ visited).length

/-- A hop meets a name. -/
theorem unmet_lt_of_next? {p : Package} {visited : List String} {e : Expr} {name : String}
    {t : TypeSpec} (h : p.next? visited e = some (name, t)) :
    p.unmet (name :: visited) < p.unmet visited := by
  obtain ⟨-, hnew, hfind⟩ := next?_eq_some_iff.mp h
  have hname : t.name.name = name := by simpa using List.find?_some hfind
  have hrefine : (p.types.filter fun u => u.name.name ∉ name :: visited) =
      (p.types.filter fun u => u.name.name ∉ visited).filter fun u => u.name.name ≠ name := by
    rw [List.filter_filter]
    apply List.filter_congr
    intro u _
    simp [not_or]
  rw [unmet, unmet, hrefine]
  refine List.length_filter_lt_length_iff_exists.mpr ⟨t, ?_, by simp [hname]⟩
  exact List.mem_filter.mpr ⟨List.mem_of_find?_eq_some hfind, by simpa [hname] using hnew⟩

/-- Once there are as many hops as unmet names, further ones find nothing new. -/
theorem followFrom_add {p : Package} {hops : Nat} {visited : List String}
    (h : p.unmet visited ≤ hops) (more : Nat) (r : Resolved) :
    p.followFrom (hops + more) visited r = p.followFrom hops visited r := by
  induction hops generalizing visited r with
  | zero =>
    -- No name is unmet, so no hop is possible.
    have hstop : p.next? visited r.type = none := by
      cases hstep : p.next? visited r.type with
      | none => rfl
      | some step => exact absurd (unmet_lt_of_next? hstep) (by omega)
    cases more with
    | zero => rfl
    | succ more => simp [followFrom, hstop]
  | succ hops ih =>
    rw [Nat.add_right_comm, followFrom, followFrom]
    cases hstep : p.next? visited r.type with
    | none => rfl
    | some step =>
      have hlt := unmet_lt_of_next? hstep
      exact ih (by omega) _

/-- The bound on the hops is high enough for every walk. -/
theorem follow_eq_followFrom (p : Package) (more : Nat) (t : TypeSpec) :
    p.follow t =
      p.followFrom (p.types.length + more) [t.name.name] ⟨t.typeParams, t.type, false⟩ :=
  (followFrom_add (List.length_filter_le _ _) more _).symm

/-- Names followed to the end. -/
def walk (p : Package) (visited : List String) (r : Resolved) : Resolved :=
  p.followFrom p.types.length visited r

/-- A walk ends where there is no hop. -/
theorem walk_of_next?_eq_none {p : Package} {visited : List String} {r : Resolved}
    (h : p.next? visited r.type = none) : p.walk visited r = r := by
  unfold walk
  cases p.types.length with
  | zero => rfl
  | succ hops => rw [followFrom, h]

/-- A walk goes on after a hop. -/
theorem walk_of_next? {p : Package} {visited : List String} {r : Resolved} {name : String}
    {t : TypeSpec} (h : p.next? visited r.type = some (name, t)) :
    p.walk visited r = p.walk (name :: visited) ⟨t.typeParams, t.type, true⟩ := by
  have hlt := unmet_lt_of_next? h
  have hle : p.unmet visited ≤ p.types.length := List.length_filter_le _ _
  -- The hop takes one off the bound, which was not needed in full.
  obtain ⟨hops, hhops⟩ : ∃ hops, p.types.length = hops + 1 :=
    Nat.exists_eq_succ_of_ne_zero (by omega)
  have hrest : p.followFrom (hops + 1) (name :: visited) ⟨t.typeParams, t.type, true⟩ =
      p.followFrom hops (name :: visited) ⟨t.typeParams, t.type, true⟩ :=
    followFrom_add (by omega) 1 _
  rw [walk, walk, hhops, hrest, followFrom, h]

/-- Whether a name was followed before a walk does not decide where it ends. -/
theorem walk_viaName (p : Package) (visited : List String) (ts : Fields) (e : Expr)
    (via via' : Bool) :
    (p.walk visited ⟨ts, e, via⟩).typeParams = (p.walk visited ⟨ts, e, via'⟩).typeParams ∧
      (p.walk visited ⟨ts, e, via⟩).type = (p.walk visited ⟨ts, e, via'⟩).type := by
  cases hstep : p.next? visited e with
  | none =>
    rw [walk_of_next?_eq_none (r := ⟨ts, e, via⟩) hstep,
      walk_of_next?_eq_none (r := ⟨ts, e, via'⟩) hstep]
    exact ⟨rfl, rfl⟩
  | some step =>
    rw [walk_of_next? (r := ⟨ts, e, via⟩) hstep, walk_of_next? (r := ⟨ts, e, via'⟩) hstep]
    exact ⟨rfl, rfl⟩

/-! ## What a walk depends on -/

/-- A walk depends on the declarations of the names that it reaches. -/
theorem followFrom_congr {p q : Package} (hops : Nat) (visited : List String) {r : Resolved}
    (h : ∀ name, p.Reaches r.type name → p.typeSpec? name = q.typeSpec? name) :
    p.followFrom hops visited r = q.followFrom hops visited r := by
  induction hops generalizing visited r with
  | zero => rfl
  | succ hops ih =>
    have hnext : p.next? visited r.type = q.next? visited r.type := by
      unfold next?
      cases hname : r.type.namedType? with
      | none => rfl
      | some name => simp only [h name (.here hname)]
    rw [followFrom, followFrom, ← hnext]
    cases hstep : p.next? visited r.type with
    | none => rfl
    | some step =>
      obtain ⟨hname, -, hfind⟩ := next?_eq_some_iff.mp hstep
      exact ih _ fun name hreach => h name (.hop hname hfind hreach)

/-- **What a declaration stands for** depends on the declarations of the names that it reaches, and
not on how many other types there are. -/
theorem follow_congr {p q : Package} {t : TypeSpec}
    (h : ∀ name, p.Reaches t.type name → p.typeSpec? name = q.typeSpec? name) :
    p.follow t = q.follow t := by
  rw [p.follow_eq_followFrom q.types.length, q.follow_eq_followFrom p.types.length,
    Nat.add_comm q.types.length]
  exact followFrom_congr _ _ h

/-! ## Declarations rewritten -/

/-- The types of the second package are those of the first, each with its type parameters and its
right-hand side rewritten.  Rewriting keeps what is declared and what a right-hand side names. -/
structure Rewrites (p q : Package) (rewrite : TypeSpec → TypeSpec) (params : Fields → Fields)
    (type : Expr → Expr) : Prop where
  types_eq : q.types = p.types.map rewrite
  name_eq : ∀ t, (rewrite t).name = t.name
  typeParams_eq : ∀ t, (rewrite t).typeParams = params t.typeParams
  type_eq : ∀ t, (rewrite t).type = type t.type
  namedType?_eq : ∀ e, (type e).namedType? = e.namedType?

namespace Rewrites

variable {p q : Package} {rewrite : TypeSpec → TypeSpec} {params : Fields → Fields}
  {type : Expr → Expr}

/-- A hop leads to the rewritten declaration. -/
theorem next?_eq (h : p.Rewrites q rewrite params type) (visited : List String) (e : Expr) :
    q.next? visited (type e) = (p.next? visited e).map fun step => (step.1, rewrite step.2) := by
  have hfind : ∀ name, q.typeSpec? name = (p.typeSpec? name).map rewrite := by
    intro name
    rw [typeSpec?, h.types_eq, List.find?_map]
    simp only [Function.comp_def, h.name_eq]
    rfl
  rw [next?, next?, h.namedType?_eq]
  cases e.namedType? with
  | none => rfl
  | some name =>
    simp only [hfind]
    split
    · rfl
    · cases p.typeSpec? name <;> rfl

/-- Names are followed alike, hop by hop. -/
theorem followFrom_eq (h : p.Rewrites q rewrite params type) (hops : Nat) (visited : List String)
    (ts : Fields) (e : Expr) (via : Bool) :
    q.followFrom hops visited ⟨params ts, type e, via⟩ =
      ⟨params (p.followFrom hops visited ⟨ts, e, via⟩).typeParams,
        type (p.followFrom hops visited ⟨ts, e, via⟩).type,
        (p.followFrom hops visited ⟨ts, e, via⟩).viaName⟩ := by
  induction hops generalizing visited ts e via with
  | zero => rfl
  | succ hops ih =>
    simp only [followFrom, h.next?_eq]
    cases p.next? visited e with
    | none => rfl
    | some step =>
      simp only [Option.map_some, h.typeParams_eq, h.type_eq]
      exact ih _ _ _ _

/-- **A rewritten declaration** stands for what the declaration stands for, rewritten. -/
theorem follow_eq (h : p.Rewrites q rewrite params type) (t : TypeSpec) :
    q.follow (rewrite t) =
      ⟨params (p.follow t).typeParams, type (p.follow t).type, (p.follow t).viaName⟩ := by
  rw [follow, h.types_eq, List.length_map, h.name_eq, h.typeParams_eq, h.type_eq]
  exact h.followFrom_eq _ _ _ _ _

end Rewrites

end Package

end GoSurface
