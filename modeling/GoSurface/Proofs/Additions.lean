/-
# Adding declarations and nothing else

New declarations enlarge the scope of a package and may be put anywhere among the old ones.  As long
as no old reference mentions a new name, and no new declaration has the key of an old one, the old
declarations are not disturbed: exactly the new ones are reported, as added one way and as removed
the other way.

* `Interleaved`: a list with further entries put in;
* `Package.Mentions`: the names that the references of a package lead to;
* `Package.Extends`: a package with further declarations that it does not mention;
* `comparePackages_of_extends`: what is reported, in both directions.
-/
import GoSurface.Proofs.Duality
import GoSurface.Proofs.Members
import GoSurface.Proofs.Privacy
import GoSurface.Proofs.Repeats

namespace GoSurface

/-! ## Lists with further entries -/

/-- The third list has the entries of the first two, each in their order. -/
inductive Interleaved {α : Type} : List α → List α → List α → Prop
  | nil : Interleaved [] [] []
  | old {x : α} {xs ys zs : List α} : Interleaved xs ys zs → Interleaved (x :: xs) ys (x :: zs)
  | new {y : α} {xs ys zs : List α} : Interleaved xs ys zs → Interleaved xs (y :: ys) (y :: zs)

namespace Interleaved

variable {α β : Type} {xs ys zs : List α}

theorem refl (xs : List α) : Interleaved xs [] xs := by
  induction xs with
  | nil => exact .nil
  | cons x xs ih => exact .old ih

/-- Everything may be put in at the end. -/
theorem append (xs ys : List α) : Interleaved xs ys (xs ++ ys) := by
  induction xs with
  | nil =>
    induction ys with
    | nil => exact .nil
    | cons y ys ih => exact .new ih
  | cons x xs ih => exact .old ih

theorem eq_of_nil {xs zs : List α} : Interleaved xs [] zs → zs = xs
  | .nil => rfl
  | .old h => congrArg _ (eq_of_nil h)

/-- Replacing goes entry by entry. -/
theorem map (f : α → β) (h : Interleaved xs ys zs) :
    Interleaved (xs.map f) (ys.map f) (zs.map f) := by
  induction h with
  | nil => exact .nil
  | old _ ih => exact .old ih
  | new _ ih => exact .new ih

/-- Selecting goes entry by entry. -/
theorem filter (p : α → Bool) (h : Interleaved xs ys zs) :
    Interleaved (xs.filter p) (ys.filter p) (zs.filter p) := by
  induction h with
  | nil => exact .nil
  | @old x _ _ _ _ ih =>
    cases hx : p x with
    | true => simpa [hx] using ih.old
    | false => simpa [hx] using ih
  | @new y _ _ _ _ ih =>
    cases hy : p y with
    | true => simpa [hy] using ih.new
    | false => simpa [hy] using ih

/-- Every entry is old or new. -/
theorem mem_iff (h : Interleaved xs ys zs) {z : α} : z ∈ zs ↔ z ∈ xs ∨ z ∈ ys := by
  induction h with
  | nil => simp
  | old _ ih => simp [ih, or_assoc]
  | new _ ih => simp [ih, or_left_comm]

/-- Entries that contribute nothing can be left out. -/
theorem flatMap_eq {g : α → List β} (h : Interleaved xs ys zs) (hnew : ∀ y ∈ ys, g y = []) :
    zs.flatMap g = xs.flatMap g := by
  induction h with
  | nil => rfl
  | old _ ih => rw [List.flatMap_cons, List.flatMap_cons, ih hnew]
  | new _ ih =>
    obtain ⟨hy, hys⟩ := List.forall_mem_cons.mp hnew
    rw [List.flatMap_cons, hy, List.nil_append, ih hys]

/-- If the old entries have distinct keys that another list has, and the new entries have none of
its keys, then exactly the new entries are removed. -/
theorem removed_pairsOfPrevious {κ : Type} [DecidableEq κ] {key : α → κ} {ls : List α}
    (h : Interleaved xs ys zs) (hnodup : (xs.map key).Nodup)
    (hold : ∀ x ∈ xs, key x ∈ ls.map key) (hnew : ∀ y ∈ ys, key y ∉ ls.map key) {seen : List κ}
    (hseen : ∀ x ∈ xs, key x ∉ seen) :
    (pairsOfPrevious key ls seen zs).filterMap Pair.removed? = ys := by
  induction h generalizing seen with
  | nil => rfl
  | @old x xs ys zs _ ih =>
    rw [List.map_cons, List.nodup_cons] at hnodup
    rw [List.forall_mem_cons] at hold hseen
    obtain ⟨l, hl, hkey⟩ := List.mem_map.mp hold.1
    obtain ⟨l', hpartner⟩ := exists_partner? hl hkey
    have hboth : (pairWith key ls x).removed? = none := by
      rw [pairWith, hpartner]
      rfl
    rw [pairsOfPrevious_cons, if_neg hseen.1, List.filterMap_cons_none hboth]
    refine ih hnodup.2 hold.2 hnew fun x' hx' hmem => ?_
    rcases List.mem_cons.mp hmem with hkey' | hmem
    · exact hnodup.1 (hkey' ▸ List.mem_map_of_mem hx')
    · exact hseen.2 x' hx' hmem
  | @new y xs ys zs _ ih =>
    rw [List.forall_mem_cons] at hnew
    have hpartner : partner? key ls y = none := by
      rw [partner?, List.find?_eq_none]
      intro l hl hkey
      exact hnew.1 (List.mem_map.mpr ⟨l, hl, by simpa using hkey⟩)
    have hremoved : (if key y ∈ seen then Pair.removed y else pairWith key ls y) =
        Pair.removed y := by
      rw [pairWith, hpartner, ite_self]
    rw [pairsOfPrevious_cons, hremoved]
    -- The key of a new entry is seen now, but no old entry has it.
    refine congrArg (y :: ·) (ih hnodup hold hnew.2 fun x hx hmem => ?_)
    rcases List.mem_cons.mp hmem with hkey | hmem
    · exact hnew.1 (hkey ▸ hold x hx)
    · exact hseen x hx hmem

/-- The same for all pairs. -/
theorem removed_pairByKey {κ : Type} [DecidableEq κ] {key : α → κ} {ls : List α}
    (h : Interleaved xs ys zs) (hnodup : (xs.map key).Nodup)
    (hold : ∀ x ∈ xs, key x ∈ ls.map key) (hnew : ∀ y ∈ ys, key y ∉ ls.map key) :
    (pairByKey key zs ls).filterMap Pair.removed? = ys := by
  rw [pairByKey, List.filterMap_append, filterMap_pairsOfLatest (fun _ => rfl), List.append_nil]
  exact h.removed_pairsOfPrevious hnodup hold hnew fun _ _ => List.not_mem_nil

end Interleaved

/-! ## Findings about new declarations alone -/

/-- A list is what was chosen from it, if something can be chosen from every entry that gives the
entry back. -/
theorem map_filterMap_eq_self {α β : Type} {g : α → Option β} {f : β → α} {xs : List α}
    (h : ∀ x ∈ xs, ∃ y, g x = some y ∧ f y = x) : (xs.filterMap g).map f = xs := by
  induction xs with
  | nil => rfl
  | cons x xs ih =>
    obtain ⟨⟨y, hy, hx⟩, hxs⟩ := List.forall_mem_cons.mp h
    rw [List.filterMap_cons_some hy, List.map_cons, hx, ih hxs]

/-- If nothing is removed or changed, then the findings are about what is added. -/
theorem findings_eq_map_added {P Q : Package} (hremoved : removedDecls P Q = [])
    (hchanged : changedDecls P Q = []) :
    findings P Q = (addedDecls P Q).map fun d => ⟨d.additionReason, .added d⟩ := by
  refine (map_filterMap_eq_self fun f hf => ?_).symm
  obtain ⟨r, x⟩ := f
  have hreason := (mem_findings_iff.mp hf).2
  cases x with
  | removed p =>
    have hmem : p ∈ removedDecls P Q := List.mem_filterMap.mpr ⟨_, hf, rfl⟩
    rw [hremoved] at hmem
    cases hmem
  | both p l =>
    have hmem : (p, l) ∈ changedDecls P Q := List.mem_filterMap.mpr ⟨_, hf, rfl⟩
    rw [hchanged] at hmem
    cases hmem
  | added l =>
    obtain rfl := Option.some.inj hreason
    exact ⟨l, rfl, rfl⟩

/-- If nothing is added or changed, then the findings are about what is removed. -/
theorem findings_eq_map_removed {P Q : Package} (hadded : addedDecls P Q = [])
    (hchanged : changedDecls P Q = []) :
    findings P Q = (removedDecls P Q).map fun d => ⟨d.removalReason, .removed d⟩ := by
  refine (map_filterMap_eq_self fun f hf => ?_).symm
  obtain ⟨r, x⟩ := f
  have hreason := (mem_findings_iff.mp hf).2
  cases x with
  | added l =>
    have hmem : l ∈ addedDecls P Q := List.mem_filterMap.mpr ⟨_, hf, rfl⟩
    rw [hadded] at hmem
    cases hmem
  | both p l =>
    have hmem : (p, l) ∈ changedDecls P Q := List.mem_filterMap.mpr ⟨_, hf, rfl⟩
    rw [hchanged] at hmem
    cases hmem
  | removed p =>
    rw [reportReason?] at hreason
    split at hreason
    · cases hreason
    · obtain rfl := Option.some.inj hreason
      exact ⟨p, rfl, rfl⟩

/-- If a package does not differ from itself, its keys are distinct. -/
theorem keysDistinct_of_findings_self {P : Package} (h : findings P P = []) : P.KeysDistinct := by
  have hadded : addedDecls P P = [] := by rw [addedDecls, h, List.filterMap_nil]
  rw [Package.KeysDistinct, List.nodup_iff_count_le_one]
  intro k
  have hcount := count_addedDecls P P k
  rw [hadded, List.map_nil, List.count_nil, Package.occurrences] at hcount
  omega

/-- If a package does not differ from itself, no extracted declaration does. -/
theorem difference?_of_findings_self {P : Package} (h : findings P P = []) {d : Decl}
    (hd : d ∈ P.surface) : d.difference? P P d = none := by
  have hpartner : partner? Decl.key P.surface d = some d :=
    partner?_eq_some_of_nodup (keysDistinct_of_findings_self h) hd rfl
  have hpair : Pair.both d d ∈ P.pairs P := both_mem_pairByKey_iff.mpr ⟨hpartner, hpartner⟩
  cases hdiff : d.difference? P P d with
  | none => rfl
  | some r =>
    have hmem : ⟨r, .both d d⟩ ∈ findings P P := mem_findings_iff.mpr ⟨hpair, hdiff⟩
    rw [h] at hmem
    cases hmem

section Extension

variable {P Q : Package} {new : List Decl}

/-- A declaration of both packages does not differ if what it stands for is the same in both. -/
theorem difference?_eq_of_follow {d : Decl}
    (hfollow : ∀ t, d = .type t → P.follow t = Q.follow t) :
    d.difference? P Q d = d.difference? P P d := by
  cases d with
  | type t => simp only [Decl.difference?, TypeSpec.difference?, hfollow t rfl]
  | _ => rfl

/-- No old declaration is unmatched, and every new one is. -/
theorem unmatched_of_interleaved (hsurface : Interleaved P.surface new Q.surface)
    (hfresh : ∀ d ∈ new, d.key ∉ P.surface.map Decl.key) (hkeys : P.KeysDistinct) :
    P.unmatched Q = [] ∧ Q.unmatched P = byCategory Decl.category new := by
  have hold : ∀ d ∈ P.surface, d.key ∈ Q.surface.map Decl.key :=
    fun d hd => List.mem_map_of_mem (hsurface.mem_iff.mpr (Or.inl hd))
  have hpartnered : (P.pairs Q).filterMap Pair.removed? = [] :=
    (Interleaved.refl P.surface).removed_pairByKey hkeys hold (by simp)
  have hlonely : (Q.pairs P).filterMap Pair.removed? = new :=
    hsurface.removed_pairByKey hkeys (fun d hd => List.mem_map_of_mem hd) hfresh
  rw [Package.unmatched, Package.unmatched, hpartnered, hlonely]
  exact ⟨rfl, rfl⟩

/-- No old declaration has changed. -/
theorem changedDecls_of_interleaved (hsurface : Interleaved P.surface new Q.surface)
    (hfresh : ∀ d ∈ new, d.key ∉ P.surface.map Decl.key)
    (hfollow : ∀ t, Decl.type t ∈ P.surface → P.follow t = Q.follow t)
    (hself : findings P P = []) : changedDecls P Q = [] := by
  have hkeys := keysDistinct_of_findings_self hself
  refine List.Perm.eq_nil ((changedDecls_perm P Q).trans ?_)
  rw [List.filter_eq_nil_iff.mpr]
  rintro ⟨p, l⟩ hpair
  have hboth := mem_partners_iff.mp hpair
  obtain ⟨hp, hl⟩ := both_mem_pairByKey_iff.mp hboth
  have hmem := (mem_of_partner? hp).1
  obtain ⟨hlmem, hkey⟩ := mem_of_partner? hl
  -- The partner cannot be new, so it is the declaration itself.
  have hsame : l = p := by
    rcases hsurface.mem_iff.mp hlmem with hold | hnew
    · exact List.inj_on_of_nodup_map hkeys hold hmem hkey
    · exact absurd (hkey ▸ List.mem_map_of_mem hmem) (hfresh l hnew)
  subst hsame
  have hdiff := difference?_eq_of_follow (P := P) (Q := Q) (d := l)
    fun t ht => hfollow t (ht ▸ hmem)
  rw [hdiff, difference?_of_findings_self hself hmem]
  simp

/-- New declarations are what there is to report. -/
theorem findings_of_interleaved (hsurface : Interleaved P.surface new Q.surface)
    (hfresh : ∀ d ∈ new, d.key ∉ P.surface.map Decl.key)
    (hfollow : ∀ t, Decl.type t ∈ P.surface → P.follow t = Q.follow t)
    (hself : findings P P = []) :
    findings P Q =
        (byCategory Decl.category new).map (fun d => ⟨d.additionReason, .added d⟩) ∧
      findings Q P = ((byCategory Decl.category new).filter fun d => !d.isHidden).map
        fun d => ⟨d.removalReason, .removed d⟩ := by
  obtain ⟨hpartnered, hlonely⟩ :=
    unmatched_of_interleaved hsurface hfresh (keysDistinct_of_findings_self hself)
  have hchanged := changedDecls_of_interleaved hsurface hfresh hfollow hself
  have hback : changedDecls Q P = [] := by
    have hswap := changedDecls_swap P Q
    rw [hchanged] at hswap
    exact List.Perm.eq_nil hswap.symm
  constructor
  · rw [findings_eq_map_added (by rw [removedDecls_eq, hpartnered, List.filter_nil]) hchanged,
      addedDecls_eq, hlonely]
  · rw [findings_eq_map_removed (by rw [addedDecls_eq, hpartnered]) hback, removedDecls_eq, hlonely]

end Extension

/-! ## References to new names -/

/-- A reference leads to a name by its spelling, or because it is already bound to the type of that
name. -/
def Ident.Mentions (x : Ident) (name : String) : Prop :=
  x.name = name ∨ (Expr.ident x).namedType? = some name

instance (x : Ident) (name : String) : Decidable (x.Mentions name) :=
  inferInstanceAs (Decidable (_ ∨ _))

/-- A package has a reference that leads to a name. -/
def Package.Mentions (p : Package) (name : String) : Prop :=
  ∃ d ∈ p.decls, ∃ x ∈ d.refs, x.Mentions name

instance (p : Package) (name : String) : Decidable (p.Mentions name) :=
  inferInstanceAs (Decidable (∃ d ∈ p.decls, ∃ x ∈ d.refs, x.Mentions name))

/-- The name that a resolved type leads to is mentioned. -/
theorem Package.mentions_of_namedType? {p : Package} {t : TypeSpec} (ht : Decl.type t ∈ p.decls)
    {next : String} (hnext : (t.resolve p.scope).type.namedType? = some next) :
    p.Mentions next := by
  obtain ⟨x, hx⟩ : ∃ x, t.type = .ident x := by
    cases htype : t.type with
    | ident x => exact ⟨x, rfl⟩
    | _ => simp [TypeSpec.resolve, htype, Expr.mapRefs, Expr.namedType?] at hnext
  refine ⟨.type t, ht, x, List.mem_append_right _ (hx ▸ List.mem_singleton_self x), ?_⟩
  have hbound : (Expr.ident (p.scope.bind (Fields.declaredNames t.typeParams) x)).namedType? =
      some next := by
    simpa [TypeSpec.resolve, hx, Expr.mapRefs] using hnext
  rw [Scope.bind] at hbound
  split at hbound
  · exact Or.inr hbound
  · split at hbound
    · -- The reference is bound to what its own name stands for.
      next b hlookup =>
        have hb := Package.name_eq_of_lookup_scope hlookup
        obtain ⟨kind, bname, ordinal⟩ := b
        cases kind with
        | type => exact Or.inl (hb.symm.trans (Option.some.inj hbound))
        | _ => cases hbound
    · exact Or.inr hbound

/-- The names that a resolved type reaches are mentioned. -/
theorem Package.mentions_of_reaches {p : Package} {e : Expr} {name : String}
    (hreach : p.resolve.Reaches e name)
    (he : ∃ t, Decl.type t ∈ p.decls ∧ e = (t.resolve p.scope).type) : p.Mentions name := by
  induction hreach with
  | here h =>
    obtain ⟨t, ht, rfl⟩ := he
    exact Package.mentions_of_namedType? ht h
  | hop h hfind _ ih =>
    rw [Package.typeSpec?_resolve] at hfind
    obtain ⟨u, hu, rfl⟩ := Option.map_eq_some_iff.mp hfind
    exact ih ⟨u, Decl.isKind_type.mem_filterMap.mp (List.mem_of_find?_eq_some hu), rfl⟩

/-- Resolving keeps what a declaration is reported as, and whether. -/
theorem Decl.report_resolve (scope : Scope) (d : Decl) :
    (d.resolve scope).category = d.category ∧
      (d.resolve scope).additionReason = d.additionReason ∧
      (d.resolve scope).removalReason = d.removalReason ∧
      (d.resolve scope).isHidden = d.isHidden := by
  refine ⟨by cases d <;> rfl, by cases d <;> rfl, by cases d <;> rfl, ?_⟩
  rw [← Decl.isHidden_key, Decl.key_resolve, Decl.isHidden_key]

/-! ## Packages with further declarations -/

/-- The second package has the declarations of the first one and new ones, put anywhere.  No
reference of the first package leads to a name that is new, and no key of an extracted declaration
is both old and new. -/
structure Package.Extends (p q : Package) (new : List Decl) : Prop where
  interleaved : Interleaved p.decls new q.decls
  unmentioned : ∀ d ∈ new, ∀ x ∈ d.declares, ¬ p.Mentions x.1
  fresh : ∀ d ∈ new, d.isExported = true → d.key ∉ p.surface.map Decl.key

namespace Package.Extends

variable {p q : Package} {new : List Decl}

/-- What a mentioned name stands for stays. -/
theorem lookup_scope (h : p.Extends q new) {name : String} (hname : p.Mentions name) :
    p.scope.lookup name = q.scope.lookup name := by
  have hnew : ∀ d ∈ new, (d.declares.filter fun x => x.1 = name) = [] := by
    intro d hd
    rw [List.filter_eq_nil_iff]
    intro x hx heq
    have hx1 : x.1 = name := by simpa using heq
    exact h.unmentioned d hd x hx (hx1 ▸ hname)
  rw [← lookup_filter, ← lookup_filter name q.scope, Package.scope, Package.scope,
    List.filter_reverse, List.filter_reverse, List.filter_flatMap, List.filter_flatMap,
    h.interleaved.flatMap_eq hnew]

theorem resolve_eq (h : p.Extends q new) {d : Decl} (hd : d ∈ p.decls) :
    d.resolve p.scope = d.resolve q.scope :=
  Decl.resolve_congr fun x hx => h.lookup_scope ⟨d, hd, x, hx, Or.inl rfl⟩

/-- The extracted declarations of the resolved packages. -/
theorem surface (h : p.Extends q new) :
    Interleaved p.resolve.surface ((new.filter Decl.isExported).map (Decl.resolve q.scope))
      q.resolve.surface := by
  have hold : p.surface.map (Decl.resolve p.scope) = p.surface.map (Decl.resolve q.scope) :=
    List.map_congr_left fun d hd => h.resolve_eq (List.mem_filter.mp hd).1
  rw [Package.surface_resolve, Package.surface_resolve, hold]
  exact (h.interleaved.filter Decl.isExported).map _

/-- A mentioned name is the name of the same type. -/
theorem typeSpec?_eq (h : p.Extends q new) {name : String} (hname : p.Mentions name) :
    p.resolve.typeSpec? name = q.resolve.typeSpec? name := by
  have hfind : ∀ r : Package, r.typeSpec? name =
      (r.decls.flatMap fun d =>
        (d.type?.filter fun t => t.name.name = name).toList).head? := by
    intro r
    rw [Package.typeSpec?, Package.types, ← List.head?_filter, List.filter_filterMap,
      List.filterMap_eq_flatMap_toList]
  have hnew : ∀ d ∈ new, (d.type?.filter fun t => t.name.name = name).toList = [] := by
    intro d hd
    cases d with
    | type t =>
      have hne : t.name.name ≠ name := by
        rintro rfl
        exact h.unmentioned _ hd _ (List.mem_singleton_self _) hname
      simp [Decl.type?, hne]
    | _ => rfl
  have hsame : p.typeSpec? name = q.typeSpec? name := by
    rw [hfind p, hfind q, h.interleaved.flatMap_eq hnew]
  rw [Package.typeSpec?_resolve, Package.typeSpec?_resolve, ← hsame]
  cases hspec : p.typeSpec? name with
  | none => rfl
  | some t =>
    have hmem : Decl.type t ∈ p.decls :=
      Decl.isKind_type.mem_filterMap.mp (List.mem_of_find?_eq_some hspec)
    exact congrArg some (Decl.type.inj (h.resolve_eq hmem))

/-- New keys are new in the resolved packages too. -/
theorem key_not_mem (h : p.Extends q new) :
    ∀ d ∈ (new.filter Decl.isExported).map (Decl.resolve q.scope),
      d.key ∉ p.resolve.surface.map Decl.key := by
  have hkeys : p.resolve.surface.map Decl.key = p.surface.map Decl.key := by
    rw [Package.surface_resolve, List.map_map]
    exact List.map_congr_left fun e _ => e.key_resolve p.scope
  intro e he
  obtain ⟨d, hd, rfl⟩ := List.mem_map.mp he
  obtain ⟨hnew, hexported⟩ := List.mem_filter.mp hd
  rw [hkeys, Decl.key_resolve]
  exact h.fresh d hnew hexported

/-- Old types stand for what they stood for. -/
theorem follow_eq (h : p.Extends q new) (t : TypeSpec) (ht : Decl.type t ∈ p.resolve.surface) :
    p.resolve.follow t = q.resolve.follow t := by
  obtain ⟨u, hu, rfl⟩ := Package.exists_type_of_mem_resolve (List.mem_filter.mp ht).1
  exact Package.follow_congr fun name hreach =>
    h.typeSpec?_eq (Package.mentions_of_reaches hreach ⟨u, hu, rfl⟩)

end Package.Extends

/-- **Additions and removals.**  If a package does not differ from itself, then extending it by
declarations that it does not mention is reported as one minor addition for each extracted new
declaration, and going back as one major removal for each of them, except the methods of unexported
types; in the order of a report, and nothing else is reported. -/
theorem comparePackages_of_extends {p q : Package} {new : List Decl} (h : p.Extends q new)
    (hself : comparePackages (some p.resolve) (some p.resolve) = []) :
    comparePackages (some p.resolve) (some q.resolve) =
        (byCategory Decl.category (new.filter Decl.isExported)).map (fun d =>
          ⟨.minor, d.additionReason, none, some (d.resolve q.scope).snippet⟩) ∧
      comparePackages (some q.resolve) (some p.resolve) =
        ((byCategory Decl.category (new.filter Decl.isExported)).filter fun d => !d.isHidden).map
          fun d => ⟨.major, d.removalReason, some (d.resolve q.scope).snippet, none⟩ := by
  have hfindings : findings p.resolve p.resolve = [] := by
    rw [comparePackages_eq_findings] at hself
    exact List.map_eq_nil_iff.mp hself
  have horder := map_byCategory (fun d => (Decl.report_resolve q.scope d).1)
    (new.filter Decl.isExported)
  obtain ⟨hadded, hremoved⟩ := findings_of_interleaved h.surface h.key_not_mem h.follow_eq hfindings
  rw [comparePackages_eq_findings, comparePackages_eq_findings, hadded, hremoved, ← horder,
    List.filter_map]
  simp only [List.map_map]
  constructor
  · apply List.map_congr_left
    intro d _
    obtain ⟨-, hreason, -, -⟩ := Decl.report_resolve q.scope d
    simp only [Function.comp, Finding.change, hreason, Decl.severity_additionReason]
    rfl
  · have hhidden : ((fun d : Decl => !d.isHidden) ∘ Decl.resolve q.scope) =
        fun d => !d.isHidden := by
      funext d
      exact congrArg _ (Decl.report_resolve q.scope d).2.2.2
    rw [hhidden]
    apply List.map_congr_left
    intro d _
    obtain ⟨-, -, hreason, -⟩ := Decl.report_resolve q.scope d
    simp only [Function.comp, Finding.change, hreason, Decl.severity_removalReason]
    rfl

/-- The function of a sample release. -/
def shapeArea : Decl :=
  .func ⟨none, ⟨"Area", none⟩, ⟨[], [⟨[⟨"s", none⟩], .pointer (.ident ⟨"Shape", none⟩), none⟩],
    [⟨[], .ident ⟨"int", none⟩, none⟩]⟩, ⟨"shape.go", 8, 1⟩⟩

/-- An exported variable whose type is unexported. -/
def sharedCache : Decl :=
  .value ⟨.var, [⟨"Shared", none⟩], some (.ident ⟨"cache", none⟩), [], false, none,
    ⟨"cache.go", 5, 5⟩⟩

/-- An unexported type. -/
def cacheType : Decl :=
  .type ⟨⟨"cache", none⟩, [], false, .struct [], ⟨"cache.go", 3, 6⟩⟩

/-- A sample release with a method put between its declarations and a new file. -/
def cachedShape : Package :=
  ⟨"shape", [⟨"shape.go", "shape", [shapeStruct ["Width"], cacheReset, shapeArea]⟩,
    ⟨"cache.go", "shape", [cacheType, sharedCache]⟩]⟩

/-- A variable, its unexported type and a method of that type are new.  The type is not extracted,
and on the way back the method is not missed. -/
theorem comparePackages_of_cachedShape :
    (shapeRelease ["Width"] []).Extends cachedShape [cacheReset, cacheType, sharedCache] ∧
    comparePackages (some (shapeRelease ["Width"] []).resolve)
      (some (shapeRelease ["Width"] []).resolve) = [] ∧
    (comparePackages (some (shapeRelease ["Width"] []).resolve) (some cachedShape.resolve)).map
      Change.reason = [.valueAdded .var, .functionAdded] ∧
    (comparePackages (some cachedShape.resolve) (some (shapeRelease ["Width"] []).resolve)).map
      Change.reason = [.valueRemoved .var] := by
  have hextends : (shapeRelease ["Width"] []).Extends cachedShape
      [cacheReset, cacheType, sharedCache] :=
    ⟨.old (.new (.old (.new (.new .nil)))), by decide +kernel, by decide +kernel⟩
  have hself : comparePackages (some (shapeRelease ["Width"] []).resolve)
      (some (shapeRelease ["Width"] []).resolve) = [] := by rfl
  obtain ⟨hadded, hremoved⟩ := comparePackages_of_extends hextends hself
  refine ⟨hextends, hself, ?_, ?_⟩
  · rw [hadded]
    decide +kernel
  · rw [hremoved]
    decide +kernel

/-- A type that is another name of a type outside the package, bound in advance. -/
def boundAbroad : Decl :=
  .type ⟨⟨"A", none⟩, [], true, .ident ⟨"x", some ⟨.type, "t", none⟩⟩, ⟨"a.go", 3, 6⟩⟩

/-- A new type of the name that the reference is bound to. -/
def lateType : Decl :=
  .type ⟨⟨"t", none⟩, [], false, .struct [], ⟨"a.go", 5, 6⟩⟩

/-- Spelling alone is not enough: no identifier is spelled like the new type, which is not exported,
but a reference bound in advance leads to it, and an old type is reported as changed. -/
theorem comparePackages_boundAbroad :
    Interleaved [boundAbroad] [lateType] [boundAbroad, lateType] ∧
    comparePackages (some (Package.resolve ⟨"p", [⟨"a.go", "p", [boundAbroad]⟩]⟩))
      (some (Package.resolve ⟨"p", [⟨"a.go", "p", [boundAbroad]⟩]⟩)) = [] ∧
    (∀ x ∈ lateType.declares, ∀ y ∈ boundAbroad.idents, y.name ≠ x.1) ∧
    lateType.isExported = false ∧
    (comparePackages (some (Package.resolve ⟨"p", [⟨"a.go", "p", [boundAbroad]⟩]⟩))
      (some (Package.resolve ⟨"p", [⟨"a.go", "p", [boundAbroad, lateType]⟩]⟩))).map
        (fun c => (c.severity, c.reason)) = [(.major, .typeChanged)] := by
  refine ⟨.old (.new .nil), by rfl, by decide, by decide, ?_⟩
  decide +kernel

end GoSurface
