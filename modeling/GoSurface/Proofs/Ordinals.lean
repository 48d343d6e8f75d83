/-
# Ordinals of constants

The members of a group that uses `iota` are numbered, and a numbered constant is the same in two
revisions only at the same place.  A group may grow at its end, because that leaves the places of
its members alone, and the references between them too.  In a group without `iota` places do not
count.

* `Expr.same_mapRefs`: a tree whose references are bound alike;
* `ValueSpec.IsConstGroup`, `Package.Around`: a group of constants, and a package around it;
* `Package.Around.lookup_member`: what the name of a member stands for;
* `about_diffValues`, `diffValues_eq_additions`: what is reported of one constant, and of all;
* `constant_ordinals`: the law.
-/
import GoSurface.Proofs.Additions
import GoSurface.Proofs.Evolution
import GoSurface.Proofs.Scoping

namespace GoSurface

/-! ## Trees bound in two ways -/

/-- A tree is the same under two ways of binding that agree on its references. -/
theorem Expr.same_mapRefs {f g : Ident → Ident} {e : Expr}
    (hrefs : ∀ x ∈ e.refs, (f x).same (g x) = true)
    (hknown : ∀ kind, ¬ e.Compares (.unsupported kind)) :
    (e.mapRefs f).same (e.mapRefs g) = true := by
  induction e using Expr.partInduction with
  | step e ih =>
    rw [Expr.same_iff, Expr.form_mapRefs, Expr.form_mapRefs, Expr.parts_mapRefs,
      Expr.parts_mapRefs]
    refine ⟨rfl, ?_, ?_, ?_⟩
    · intro hform
      obtain ⟨kind, rfl⟩ := Expr.form_eq_unsupported_iff.mp hform
      exact hknown kind (.root _)
    · by_cases hident : e.form = .ident
      · obtain ⟨x, rfl⟩ := Expr.exists_ident_of_form hident
        simpa [Expr.mapRefs, Expr.labels, NameMode.agree] using hrefs x (List.mem_singleton_self x)
      · rw [Expr.labels_mapRefs f hident, Expr.labels_mapRefs g hident]
        exact List.forall₂_same.mpr fun i _ => NameMode.agree_refl i
    · rw [List.forall₂_map_left_iff, List.forall₂_map_right_iff, List.forall₂_same]
      intro c hc
      refine ih c hc (fun x hx => hrefs x ?_) fun kind hx => hknown kind (.part hc hx)
      exact Expr.mem_refs_of_child (Expr.mem_children_of_mem_parts hc) hx

/-- What a declaration of constants says, wherever it stands: names, type and values. -/
def ValueSpec.content (v : ValueSpec) : List Ident × Option Expr × List Expr :=
  (v.names, v.type, v.values)

theorem ValueSpec.key_eq_of_content {v w : ValueSpec} (hkind : w.kind = v.kind)
    (hcontent : w.content = v.content) : w.key = v.key := by
  rw [ValueSpec.key, ValueSpec.key, hkind, (Prod.mk.inj hcontent).1]

/-- Constants that say the same and have the same ordinal are the same, if their references are
bound alike. -/
theorem ValueSpec.same_resolve {s s' : Scope} {v w : ValueSpec} (hcontent : w.content = v.content)
    (hkind : w.kind = v.kind) (hordinal : w.ordinal = v.ordinal)
    (hrefs : ∀ x ∈ (Decl.value v).refs, (s.bind [] x).same (s'.bind [] x) = true)
    (hknown : ∀ e ∈ v.comparedTrees, ∀ kind, ¬ e.Compares (.unsupported kind)) :
    (v.resolve s).same (w.resolve s') = true := by
  obtain ⟨hnames, hrest⟩ := Prod.mk.inj hcontent
  obtain ⟨htype, hvalues⟩ := Prod.mk.inj hrest
  have hbinding : w.binding = v.binding := by
    funext name
    rw [ValueSpec.binding, ValueSpec.binding, hkind, hordinal]
  rw [ValueSpec.comparedTrees, List.forall_mem_append] at hknown
  rw [Decl.refs, List.forall_mem_append] at hrefs
  simp only [ValueSpec.same, ValueSpec.resolve, hnames, htype, hvalues, hbinding,
    Bool.and_eq_true]
  refine ⟨⟨?_, ?_⟩, ?_⟩
  · exact sameNames_iff.mpr (List.forall₂_same.mpr fun x _ => Ident.same_refl x)
  · cases ht : v.type with
    | none => rfl
    | some e =>
      rw [ht] at hrefs hknown
      exact Expr.same_mapRefs hrefs.1 (hknown.1 e (by simp))
  · rw [Expr.sameList_iff, List.forall₂_map_left_iff, List.forall₂_map_right_iff,
      List.forall₂_same]
    intro e he
    refine Expr.same_mapRefs (fun x hx => hrefs.2 x ?_) (hknown.2 e he)
    rw [Expr.refsList_eq_flatMap]
    exact List.mem_flatMap.mpr ⟨e, he, hx⟩

/-! ## Groups -/

/-- Declarations of one exported constant each, with distinct names and nothing bound. -/
structure ValueSpec.IsConstGroup (group : List ValueSpec) : Prop where
  kind : ∀ v ∈ group, v.kind = .const
  exported : ∀ v ∈ group, ∃ x, v.names = [x] ∧ x.isExported = true
  distinct : (group.map ValueSpec.key).Nodup
  unbound : ∀ v ∈ group, ∀ x ∈ (Decl.value v).idents, x.isBound = false

/-- The ordinal at a place of a group. -/
def ValueSpec.ordinalAt (group : List ValueSpec) (i : Nat) : Option Nat :=
  if ValueSpec.usesIota group then some i else none

/-- The member at a place of a group, numbered. -/
def ValueSpec.numberedAt (group : List ValueSpec) (i : Nat) (v : ValueSpec) : ValueSpec :=
  { v with ordinal := ValueSpec.ordinalAt group i }

theorem ValueSpec.numberGroup_eq (group : List ValueSpec) :
    ValueSpec.numberGroup group = group.mapIdx (ValueSpec.numberedAt group) := rfl

/-- The members of a numbered group. -/
theorem ValueSpec.mem_numberGroup {group : List ValueSpec} {u : ValueSpec} :
    u ∈ ValueSpec.numberGroup group ↔
      ∃ i v, group[i]? = some v ∧ ValueSpec.numberedAt group i v = u := by
  rw [ValueSpec.numberGroup_eq, List.mem_iff_getElem?]
  simp only [List.getElem?_mapIdx, Option.map_eq_some_iff]

theorem ValueSpec.key_numberedAt (group : List ValueSpec) (i : Nat) (v : ValueSpec) (s : Scope) :
    ((ValueSpec.numberedAt group i v).resolve s).key = v.key := by
  rw [ValueSpec.key, ValueSpec.resolve, List.map_map]
  rfl

/-- What does not depend on numbers and bindings can be read off the members as they are. -/
theorem ValueSpec.map_numberedAt {β : Type} {f g : ValueSpec → β} (group : List ValueSpec)
    (s : Scope) (members : List ValueSpec) (place : Nat → Nat)
    (h : ∀ i, ∀ v ∈ members, f ((ValueSpec.numberedAt group i v).resolve s) = g v) :
    ((members.mapIdx fun i => ValueSpec.numberedAt group (place i)).map (ValueSpec.resolve s)).map
      f = members.map g := by
  apply List.ext_getElem?
  intro i
  simp only [List.getElem?_map, List.getElem?_mapIdx, Option.map_map]
  cases hv : members[i]? with
  | none => rfl
  | some v => exact congrArg some (h (place i) v (List.mem_of_getElem? hv))

/-- Numbering and resolving keep the keys of members. -/
theorem ValueSpec.map_key_numberedAt (group : List ValueSpec) (s : Scope)
    (members : List ValueSpec) (place : Nat → Nat) :
    ((members.mapIdx fun i => ValueSpec.numberedAt group (place i)).map (ValueSpec.resolve s)).map
      ValueSpec.key = members.map ValueSpec.key :=
  ValueSpec.map_numberedAt group s members place fun i v _ => ValueSpec.key_numberedAt group i v s

/-- Members of one key are at one place. -/
theorem ValueSpec.IsConstGroup.place_unique {group : List ValueSpec}
    (h : ValueSpec.IsConstGroup group) {i j : Nat} {v w : ValueSpec} (hv : group[i]? = some v)
    (hw : group[j]? = some w) (hkey : w.key = v.key) : i = j := by
  have hlength := (List.getElem?_eq_some_iff.mp hv).1
  refine (List.getElem?_inj (by simpa using hlength) h.distinct).mp ?_
  rw [List.getElem?_map, List.getElem?_map, hv, hw, Option.map_some, Option.map_some, hkey]

/-- Members have the key that their name gives. -/
theorem ValueSpec.IsConstGroup.key_eq {group : List ValueSpec} (h : ValueSpec.IsConstGroup group)
    {v : ValueSpec} (hv : v ∈ group) {x : Ident} (hx : x ∈ v.names) :
    v.key = (.const, [x.name]) := by
  obtain ⟨y, hnames, -⟩ := h.exported v hv
  rw [hnames, List.mem_singleton] at hx
  rw [ValueSpec.key, h.kind v hv, hnames, hx]
  rfl

/-- The declarations of a package are those of a group, numbered, with others around it that are no
constants or variables and do not go by the names of the group. -/
structure Package.Around (p : Package) (before : List Decl) (group : List ValueSpec)
    (after : List Decl) : Prop where
  decls : p.decls = before ++ (ValueSpec.numberGroup group).map Decl.value ++ after
  no_value : ∀ v, Decl.value v ∉ before ++ after
  fresh : ∀ v ∈ group, ∀ x ∈ v.names, ∀ d ∈ before ++ after, ∀ b, ¬ d.DeclaresAs x.name b

namespace Package.Around

variable {p : Package} {before after : List Decl} {G : List ValueSpec}

/-- The extracted constants are the members of the group. -/
theorem exportedValues_resolve (h : p.Around before G after) (hG : ValueSpec.IsConstGroup G) :
    exportedValues (some p.resolve) =
      (ValueSpec.numberGroup G).map (ValueSpec.resolve p.scope) := by
  have hothers : ∀ ds : List Decl, (∀ v, Decl.value v ∉ ds) → ds.filterMap Decl.value? = [] := by
    intro ds hds
    rw [List.filterMap_eq_nil_iff]
    intro d hd
    cases d with
    | value v => exact absurd hd (hds v)
    | _ => rfl
  have hvalues : p.values = ValueSpec.numberGroup G := by
    have hbefore := hothers before fun v hv => h.no_value v (List.mem_append_left _ hv)
    have hafter := hothers after fun v hv => h.no_value v (List.mem_append_right _ hv)
    have hgroup : ((ValueSpec.numberGroup G).map Decl.value).filterMap Decl.value? =
        ValueSpec.numberGroup G := by
      rw [List.filterMap_map]
      exact List.filterMap_some
    rw [Package.values, h.decls, List.filterMap_append, List.filterMap_append, hbefore, hgroup,
      hafter, List.nil_append, List.append_nil]
  have hexported : ∀ u ∈ ValueSpec.numberGroup G, u.names.all Ident.isExported = true := by
    intro u hu
    obtain ⟨i, v, hv, rfl⟩ := ValueSpec.mem_numberGroup.mp hu
    obtain ⟨x, hnames, hx⟩ := hG.exported v (List.mem_of_getElem? hv)
    simp [ValueSpec.numberedAt, hnames, hx]
  rw [GoSurface.exportedValues_resolve, exportedValues, hvalues, List.filter_eq_self.mpr hexported]

/-- The names that a package around a group gives a meaning are those of the group, which stand for
constants, and those around it. -/
theorem declaresAs_cases (h : p.Around before G after) (hG : ValueSpec.IsConstGroup G) {d : Decl}
    (hd : d ∈ p.decls) {name : String} {b : Binding} (hb : d.DeclaresAs name b) :
    d ∈ before ++ after ∨ ∃ i v, G[i]? = some v ∧ v.key = (.const, [name]) ∧
      b = ⟨.constant, name, ValueSpec.ordinalAt G i⟩ := by
  rw [h.decls, List.append_assoc, List.mem_append, List.mem_append, List.mem_map] at hd
  rcases hd with hd | ⟨u, hu, rfl⟩ | hd
  · exact Or.inl (List.mem_append_left _ hd)
  · obtain ⟨i, v, hv, rfl⟩ := ValueSpec.mem_numberGroup.mp hu
    have hmem := List.mem_of_getElem? hv
    refine Or.inr ⟨i, v, hv, ?_⟩
    cases hb with
    | const hkind hx hblank => exact ⟨hG.key_eq hmem hx, rfl⟩
    | var hkind hx hblank =>
      have hconst : v.kind = .var := hkind
      rw [hG.kind v hmem] at hconst
      cases hconst
  · exact Or.inl (List.mem_append_right _ hd)

/-- The name of a member stands for the member. -/
theorem lookup_member (h : p.Around before G after) (hG : ValueSpec.IsConstGroup G) {i : Nat}
    {v : ValueSpec} {name : String} (hv : G[i]? = some v) (hkey : v.key = (.const, [name])) :
    p.scope.lookup name = some ⟨.constant, name, ValueSpec.ordinalAt G i⟩ := by
  have hmem := List.mem_of_getElem? hv
  obtain ⟨x, hnames, hx⟩ := hG.exported v hmem
  have hmemName : x ∈ v.names := by simp [hnames]
  have hname : x.name = name := by
    have hkeys := (hG.key_eq hmem hmemName).symm.trans hkey
    simpa using hkeys
  subst hname
  have hdeclared : ∃ d ∈ p.decls, ∃ b, d.DeclaresAs x.name b := by
    have hnumbered := ValueSpec.mem_numberGroup.mpr ⟨i, v, hv, rfl⟩
    refine ⟨.value (ValueSpec.numberedAt G i v), ?_, _, .const (hG.kind v hmem) hmemName ?_⟩
    · rw [h.decls]
      exact List.mem_append_left _ (List.mem_append_right _ (List.mem_map_of_mem hnumbered))
    · intro hblank
      rw [Ident.isExported, hblank] at hx
      revert hx
      decide
  obtain ⟨b, hb⟩ := Package.exists_lastDeclares_iff.mpr hdeclared
  rw [Package.lookup_scope.mpr hb]
  -- Whatever declaration is the last, it is this member.
  obtain ⟨front, d, rest, hdecls, hd, -⟩ := hb
  rcases h.declaresAs_cases hG (by simp [hdecls]) hd with hd' | ⟨j, w, hw, hwkey, rfl⟩
  · exact absurd hd (h.fresh v hmem x hmemName d hd' b)
  · rw [hG.place_unique hv hw (hwkey.trans hkey.symm)]

/-- A name that neither the group nor anything around it goes by stands for nothing. -/
theorem lookup_eq_none (h : p.Around before G after) (hG : ValueSpec.IsConstGroup G)
    {name : String} (hgroup : ∀ v ∈ G, v.key ≠ (.const, [name]))
    (haround : ∀ d ∈ before ++ after, ∀ b, ¬ d.DeclaresAs name b) :
    p.scope.lookup name = none := by
  rw [Option.eq_none_iff_forall_ne_some]
  intro b hb
  obtain ⟨front, d, rest, hdecls, hd, -⟩ := Package.lookup_scope.mp hb
  rcases h.declaresAs_cases hG (by simp [hdecls]) hd with hd' | ⟨i, v, hv, hkey, -⟩
  · exact haround d hd' b hd
  · exact hgroup v (List.mem_of_getElem? hv) hkey

/-- A name that the group does not go by stands for what it stands for around the group. -/
theorem lookup_around (h : p.Around before G after) (hG : ValueSpec.IsConstGroup G)
    {name : String} (hgroup : ∀ v ∈ G, v.key ≠ (.const, [name])) :
    p.scope.lookup name = ((before ++ after).flatMap Decl.declares).reverse.lookup name := by
  have hmembers : (((ValueSpec.numberGroup G).map Decl.value).flatMap Decl.declares).filter
      (fun x => x.1 = name) = [] := by
    rw [List.filter_eq_nil_iff]
    rintro ⟨name', b⟩ hx hname
    obtain rfl : name' = name := by simpa using hname
    obtain ⟨d, hd, hb⟩ := List.mem_flatMap.mp hx
    have hdecl : d ∈ p.decls := by
      rw [h.decls]
      exact List.mem_append_left _ (List.mem_append_right _ hd)
    rcases h.declaresAs_cases hG hdecl (Decl.mem_declares.mp hb) with hd' | ⟨i, v, hv, hkey, -⟩
    · obtain ⟨u, -, rfl⟩ := List.mem_map.mp hd
      exact h.no_value u hd'
    · exact hgroup v (List.mem_of_getElem? hv) hkey
  rw [← lookup_filter, ← lookup_filter name (List.reverse _), Package.scope, h.decls]
  simp only [List.flatMap_append, List.filter_reverse, List.filter_append, hmembers,
    List.append_nil]

end Package.Around

/-! ## One constant -/

section Comparison

variable {p q : Package} {before before' after after' : List Decl} {G H : List ValueSpec}

/-- Numbered constants of one name are the same if they have the same ordinal, type and values. -/
theorem ValueSpec.same_numberedAt_iff (hG : ValueSpec.IsConstGroup G)
    (hH : ValueSpec.IsConstGroup H) {i j : Nat} {v w : ValueSpec} (hv : v ∈ G) (hw : w ∈ H)
    (hkey : w.key = v.key) (s s' : Scope) :
    ((ValueSpec.numberedAt G i v).resolve s).same ((ValueSpec.numberedAt H j w).resolve s') =
        true ↔
      ValueSpec.ordinalAt G i = ValueSpec.ordinalAt H j ∧
      Expr.sameOption (v.resolve s).type (w.resolve s').type = true ∧
      Expr.sameList (v.resolve s).values (w.resolve s').values = true := by
  obtain ⟨x, hvnames, -⟩ := hG.exported v hv
  obtain ⟨y, hwnames, -⟩ := hH.exported w hw
  have hname : y.name = x.name := by
    simpa [ValueSpec.key, hvnames, hwnames] using (Prod.mk.inj hkey).2
  simp [ValueSpec.same, ValueSpec.resolve, ValueSpec.numberedAt, sameNames, hvnames, hwnames,
    Ident.same, Binding.same, ValueSpec.binding, hG.kind v hv, hH.kind w hw, hname,
    ValueKind.declKind, and_assoc]

/-- Numbering and resolving do not change how a constant is quoted. -/
theorem ValueSpec.snippet_numberedAt (s : Scope) (i : Nat) (v : ValueSpec) :
    ((ValueSpec.numberedAt G i v).resolve s).snippet = v.snippet := by
  have hprint := Decl.printouts_resolve s (.value (ValueSpec.numberedAt G i v))
  have htext : ((ValueSpec.numberedAt G i v).resolve s).text = v.text := (List.cons.inj hprint).1
  have hnames : namesText ((ValueSpec.numberedAt G i v).resolve s).names = namesText v.names := by
    rw [namesText, namesText, ValueSpec.resolve, List.map_map]
    rfl
  rw [ValueSpec.snippet, htext, hnames]
  rfl

/-- With distinct keys a key selects one entry. -/
theorem filter_key_eq_singleton {α κ : Type} [DecidableEq κ] {key : α → κ} {xs : List α} {x : α}
    (hnodup : (xs.map key).Nodup) (hx : x ∈ xs) : xs.filter (fun a => key a = key x) = [x] := by
  obtain ⟨front, rest, rfl⟩ := List.append_of_mem hx
  rw [List.map_append, List.map_cons, List.nodup_middle, List.nodup_cons, List.mem_append,
    not_or] at hnodup
  have hother : ∀ ys : List α, key x ∉ ys.map key →
      ys.filter (fun a => decide (key a = key x)) = [] := by
    intro ys hys
    rw [List.filter_eq_nil_iff]
    intro a ha hkey
    exact hys (List.mem_map.mpr ⟨a, ha, by simpa using hkey⟩)
  rw [List.filter_append, List.filter_cons_of_pos (by simp), hother _ hnodup.1.1,
    hother _ hnodup.1.2, List.nil_append]

/-- The extracted constants of a package around a group have distinct keys. -/
theorem Package.Around.nodup_keys (hp : p.Around before G after) (hG : ValueSpec.IsConstGroup G) :
    ((exportedValues (some p.resolve)).map ValueSpec.key).Nodup := by
  have hkeys := ValueSpec.map_key_numberedAt G p.scope G id
  rw [hp.exportedValues_resolve hG]
  exact hkeys ▸ hG.distinct

/-- The extracted constants are quoted by the name that is their key. -/
theorem Package.Around.key_eq_snippet (hp : p.Around before G after)
    (hG : ValueSpec.IsConstGroup G) {u : ValueSpec} (hu : u ∈ exportedValues (some p.resolve)) :
    u.key = (.const, [u.snippet.name]) := by
  rw [hp.exportedValues_resolve hG] at hu
  obtain ⟨u₀, hu₀, rfl⟩ := List.mem_map.mp hu
  obtain ⟨i, v, hv, rfl⟩ := ValueSpec.mem_numberGroup.mp hu₀
  have hmem := List.mem_of_getElem? hv
  obtain ⟨x, hnames, -⟩ := hG.exported v hmem
  have hx : x ∈ v.names := by simp [hnames]
  have hquote : namesText [x] = x.name := by simp [namesText, joinTexts]
  rw [ValueSpec.key_numberedAt, ValueSpec.snippet_numberedAt, hG.key_eq hmem hx, ValueSpec.snippet,
    hnames, hquote]

/-- What is reported of a constant that both groups have. -/
theorem about_diffValues (hG : ValueSpec.IsConstGroup G) (hH : ValueSpec.IsConstGroup H)
    (hp : p.Around before G after) (hq : q.Around before' H after') {i j : Nat} {v w : ValueSpec}
    {name : String} (hv : G[i]? = some v) (hw : H[j]? = some w)
    (hvkey : v.key = (.const, [name])) (hwkey : w.key = (.const, [name])) :
    Diff.about (diffValues (some p.resolve) (some q.resolve)) name =
      (valueChange (.both ((ValueSpec.numberedAt G i v).resolve p.scope)
        ((ValueSpec.numberedAt H j w).resolve q.scope))).toList := by
  have hone : ∀ {p : Package} {before after : List Decl} {G : List ValueSpec} {i : Nat}
      {v : ValueSpec}, p.Around before G after → ValueSpec.IsConstGroup G → G[i]? = some v →
      v.key = (.const, [name]) →
      (exportedValues (some p.resolve)).filter (fun u => u.key = (.const, [name])) =
        [(ValueSpec.numberedAt G i v).resolve p.scope] := by
    intro p before after G i v hp hG hv hkey
    have hmem : (ValueSpec.numberedAt G i v).resolve p.scope ∈ exportedValues (some p.resolve) := by
      rw [hp.exportedValues_resolve hG]
      exact List.mem_map_of_mem (ValueSpec.mem_numberGroup.mpr ⟨i, v, hv, rfl⟩)
    have hfilter := filter_key_eq_singleton (hp.nodup_keys hG) hmem
    rwa [ValueSpec.key_numberedAt, hkey] at hfilter
  have hquotes : ∀ x c, valueChange x = some c →
      c.snippets = (x.previous?.toList ++ x.latest?.toList).map ValueSpec.snippet := by
    rintro (u | u | ⟨u, u'⟩) c hc
    · obtain rfl := Option.some.inj hc
      rfl
    · obtain rfl := Option.some.inj hc
      rfl
    · rw [valueChange] at hc
      split at hc
      · cases hc
      · obtain rfl := Option.some.inj hc
        rfl
  refine about_pairByKey (hone hp hG hv hvkey) (hone hq hH hw hwkey) hquotes ?_
  rintro u (hu | hu)
  · rw [hp.key_eq_snippet hG hu]
    simp
  · rw [hq.key_eq_snippet hH hu]
    simp

/-! ## All constants -/

/-- A name that both packages give no other meaning than a place among constants is bound alike. -/
theorem Package.Around.bind_same (hG : ValueSpec.IsConstGroup G) (hH : ValueSpec.IsConstGroup H)
    (hp : p.Around before G after) (hq : q.Around before H after)
    (hkept : ∀ v ∈ G, ∃ w ∈ H, w.key = v.key)
    (hordinal : ∀ i j v w, G[i]? = some v → H[j]? = some w → w.key = v.key →
      ValueSpec.ordinalAt G i = ValueSpec.ordinalAt H j)
    {x : Ident} (hx : x.isBound = false) :
    (p.scope.bind [] x).same (q.scope.bind [] x) = true := by
  have hequal : p.scope.lookup x.name = q.scope.lookup x.name →
      (p.scope.bind [] x).same (q.scope.bind [] x) = true := by
    intro h
    rw [Scope.bind_apply_congr h]
    exact Ident.same_refl _
  by_cases hold : ∃ v ∈ G, v.key = (.const, [x.name])
  · -- An old member has its place in both groups.
    obtain ⟨v, hv, hvkey⟩ := hold
    obtain ⟨w, hw, hwkey⟩ := hkept v hv
    obtain ⟨i, hi⟩ := List.mem_iff_getElem?.mp hv
    obtain ⟨j, hj⟩ := List.mem_iff_getElem?.mp hw
    apply hequal
    rw [hp.lookup_member hG hi hvkey, hq.lookup_member hH hj (hwkey.trans hvkey),
      hordinal i j v w hi hj hwkey]
  · have hnotOld : ∀ v ∈ G, v.key ≠ (.const, [x.name]) := fun v hv hkey => hold ⟨v, hv, hkey⟩
    by_cases hnew : ∃ w ∈ H, w.key = (.const, [x.name])
    · -- A new member is not known to the old package, and an open name is the same as any.
      obtain ⟨w, hw, hwkey⟩ := hnew
      obtain ⟨y, hnames, -⟩ := hH.exported w hw
      have hy : y ∈ w.names := by simp [hnames]
      have hname : y.name = x.name := by simpa using (hH.key_eq hw hy).symm.trans hwkey
      have hnone := hp.lookup_eq_none hG hnotOld fun d hd => hname ▸ hq.fresh w hw y hy d hd
      have hbind : p.scope.bind [] x = x := by simp [Scope.bind, hnone]
      have hopen : x.binding = none := by
        cases hb : x.binding with
        | none => rfl
        | some b => simp [Ident.isBound, hb] at hx
      rw [hbind, Ident.same, Scope.name_bind, hopen]
      simp
    · have hnotNew : ∀ w ∈ H, w.key ≠ (.const, [x.name]) := fun w hw hkey => hnew ⟨w, hw, hkey⟩
      exact hequal (by rw [hp.lookup_around hG hnotOld, hq.lookup_around hH hnotNew])

/-- The keys of constants are read off what they say. -/
theorem ValueSpec.map_key_eq {vs : List ValueSpec} (h : ∀ v ∈ vs, v.kind = .const) :
    vs.map ValueSpec.key =
      (vs.map ValueSpec.content).map fun c => (.const, c.1.map Ident.name) := by
  rw [List.map_map]
  apply List.map_congr_left
  intro v hv
  rw [ValueSpec.key, h v hv]
  rfl

/-- If constants and variables with the keys of the old ones come first and are the same, then the
rest is reported as added, and nothing else. -/
theorem diffValues_eq_map_added {P Q : Package} {old new : List ValueSpec}
    (hQ : exportedValues (some Q) = old ++ new)
    (hnodup : ((exportedValues (some P)).map ValueSpec.key).Nodup)
    (hkeys : (old.map ValueSpec.key).Perm ((exportedValues (some P)).map ValueSpec.key))
    (hnew : ∀ w ∈ new, w.key ∉ (exportedValues (some P)).map ValueSpec.key)
    (hsame : ∀ v ∈ exportedValues (some P), ∀ w ∈ exportedValues (some Q), w.key = v.key →
      v.same w = true) :
    diffValues (some P) (some Q) =
      new.map fun w => Change.added .minor (.valueAdded w.kind) w.snippet := by
  have hremoved : (pairByKey ValueSpec.key (exportedValues (some P))
      (exportedValues (some Q))).filterMap Pair.removed? = [] := by
    refine (Interleaved.refl _).removed_pairByKey hnodup ?_ (by simp)
    intro v hv
    rw [hQ, List.map_append]
    exact List.mem_append_left _ (hkeys.mem_iff.mpr (List.mem_map_of_mem hv))
  have hadded : (pairByKey ValueSpec.key (exportedValues (some P))
      (exportedValues (some Q))).filterMap Pair.added? = new := by
    rw [added_pairByKey_swap, hQ]
    refine (Interleaved.append old new).removed_pairByKey (hkeys.nodup_iff.mpr hnodup) ?_ hnew
    exact fun w hw => hkeys.mem_iff.mp (List.mem_map_of_mem hw)
  have hchange : ∀ x ∈ pairByKey ValueSpec.key (exportedValues (some P))
      (exportedValues (some Q)), valueChange x =
        x.added?.map fun w => Change.added .minor (.valueAdded w.kind) w.snippet := by
    intro x hx
    cases x with
    | removed v =>
      have hnone := List.filterMap_eq_nil_iff.mp hremoved _ hx
      cases hnone
    | added w => rfl
    | both v w =>
      obtain ⟨hv, hw⟩ := sides_of_mem_pairByKey hx
      rw [valueChange, if_pos (hsame v (hv v rfl) w (hw w rfl) (key_eq_of_both_mem hx))]
      rfl
  rw [diffValues, List.filterMap_congr hchange, ← List.map_filterMap, hadded]

/-- If the members of a group are kept, with the ordinals they have, then the members put behind
them are reported as added, and nothing else. -/
theorem diffValues_eq_additions {H₀ K : List ValueSpec} (hG : ValueSpec.IsConstGroup G)
    (hH : ValueSpec.IsConstGroup (H₀ ++ K)) (hp : p.Around before G after)
    (hq : q.Around before (H₀ ++ K) after)
    (hcontent : (H₀.map ValueSpec.content).Perm (G.map ValueSpec.content))
    (hordinal : ∀ i j v w, G[i]? = some v → (H₀ ++ K)[j]? = some w → w.key = v.key →
      ValueSpec.ordinalAt G i = ValueSpec.ordinalAt (H₀ ++ K) j)
    (hknown : ∀ v ∈ G, ∀ e ∈ v.comparedTrees, ∀ kind, ¬ e.Compares (.unsupported kind)) :
    diffValues (some p.resolve) (some q.resolve) =
      K.map fun w => ⟨.minor, .valueAdded .const, none, some w.snippet⟩ := by
  have hkind := List.forall_mem_append.mp hH.kind
  have hkeys : (H₀.map ValueSpec.key).Perm (G.map ValueSpec.key) := by
    rw [ValueSpec.map_key_eq hkind.1, ValueSpec.map_key_eq hG.kind]
    exact hcontent.map _
  have hdistinct := hH.distinct
  rw [List.map_append, List.nodup_append'] at hdistinct
  obtain ⟨-, -, hdisjoint⟩ := hdistinct
  have hfresh : ∀ w ∈ K, w.key ∉ G.map ValueSpec.key := fun w hw hmem =>
    hdisjoint (hkeys.mem_iff.mpr hmem) (List.mem_map_of_mem hw)
  have hkept : ∀ v ∈ G, ∃ w ∈ H₀ ++ K, w.key = v.key := by
    intro v hv
    obtain ⟨w, hw, hkey⟩ := List.mem_map.mp (hkeys.mem_iff.mpr (List.mem_map_of_mem hv))
    exact ⟨w, List.mem_append_left _ hw, hkey⟩
  -- A member with the key of an old one says what the old one says.
  have hsaid : ∀ v ∈ G, ∀ w ∈ H₀ ++ K, w.key = v.key → w.content = v.content := by
    intro v hv w hw hkey
    rcases List.mem_append.mp hw with hw | hw
    · obtain ⟨v', hv', hcontents⟩ :=
        List.mem_map.mp (hcontent.mem_iff.mp (List.mem_map_of_mem hw))
      have hkey' : v'.key = w.key :=
        ValueSpec.key_eq_of_content ((hG.kind v' hv').trans (hkind.1 w hw).symm) hcontents
      rw [← hcontents, List.inj_on_of_nodup_map hG.distinct hv' hv (hkey'.trans hkey)]
    · exact absurd (hkey ▸ List.mem_map_of_mem hv) (hfresh w hw)
  have hP := hp.exportedValues_resolve hG
  have hQ := hq.exportedValues_resolve hH
  have hPkeys : (exportedValues (some p.resolve)).map ValueSpec.key = G.map ValueSpec.key := by
    rw [hP]
    exact ValueSpec.map_key_numberedAt G p.scope G id
  rw [ValueSpec.numberGroup_eq, List.mapIdx_append, List.map_append] at hQ
  have hold := ValueSpec.map_key_numberedAt (H₀ ++ K) q.scope H₀ id
  have hnew := ValueSpec.map_key_numberedAt (H₀ ++ K) q.scope K (· + H₀.length)
  rw [diffValues_eq_map_added hQ (hp.nodup_keys hG)]
  · refine ValueSpec.map_numberedAt (H₀ ++ K) q.scope K (· + H₀.length) fun i w hw => ?_
    have hconst : ((ValueSpec.numberedAt (H₀ ++ K) i w).resolve q.scope).kind = .const :=
      hkind.2 w hw
    rw [ValueSpec.snippet_numberedAt, hconst]
    rfl
  · rw [hPkeys]
    exact hold ▸ hkeys
  · rw [hPkeys]
    intro u hu
    have hmem := List.mem_map_of_mem (f := ValueSpec.key) hu
    rw [hnew] at hmem
    obtain ⟨w, hw, hkey⟩ := List.mem_map.mp hmem
    exact hkey ▸ hfresh w hw
  · rw [hP, hq.exportedValues_resolve hH]
    intro a ha b hb hkey
    obtain ⟨a₀, ha₀, rfl⟩ := List.mem_map.mp ha
    obtain ⟨i, v, hv, rfl⟩ := ValueSpec.mem_numberGroup.mp ha₀
    obtain ⟨b₀, hb₀, rfl⟩ := List.mem_map.mp hb
    obtain ⟨j, w, hw, rfl⟩ := ValueSpec.mem_numberGroup.mp hb₀
    rw [ValueSpec.key_numberedAt, ValueSpec.key_numberedAt] at hkey
    have hvmem := List.mem_of_getElem? hv
    have hwmem := List.mem_of_getElem? hw
    refine ValueSpec.same_resolve (hsaid v hvmem w hwmem hkey)
      ((hH.kind w hwmem).trans (hG.kind v hvmem).symm) (hordinal i j v w hv hw hkey).symm ?_
      (hknown v hvmem)
    intro x hx
    exact Package.Around.bind_same hG hH hp hq hkept hordinal
      (hG.unbound v hvmem x (Decl.mem_idents_of (Or.inl hx)))

/-- **The law of ordinals.**  Where both groups use `iota`, a constant at another place is a major
change, a constant at its place is unchanged exactly if its resolved type and values are, and
members at the end of an understood group are minor additions.  Where neither does, an understood
group may be put into any order. -/
theorem constant_ordinals (hG : ValueSpec.IsConstGroup G) (hH : ValueSpec.IsConstGroup H)
    (hp : p.Around before G after) (hq : q.Around before' H after') :
    (ValueSpec.usesIota G = true → ValueSpec.usesIota H = true →
      (∀ (i j : Nat) (v w : ValueSpec) (name : String), G[i]? = some v → H[j]? = some w →
        v.names.map Ident.name = [name] → w.names.map Ident.name = [name] → i ≠ j →
        Diff.about (diffValues (some p.resolve) (some q.resolve)) name =
          [⟨.major, .valueChanged .const, some v.snippet, some w.snippet⟩]) ∧
      (∀ (i : Nat) (v w : ValueSpec) (name : String), G[i]? = some v → H[i]? = some w →
        v.names.map Ident.name = [name] → w.names.map Ident.name = [name] →
        (Diff.about (diffValues (some p.resolve) (some q.resolve)) name = [] ↔
          Expr.sameOption (v.resolve p.scope).type (w.resolve q.scope).type = true ∧
          Expr.sameList (v.resolve p.scope).values (w.resolve q.scope).values = true)) ∧
      ∀ kept added, H = kept ++ added → before' = before → after' = after →
        kept.map ValueSpec.content = G.map ValueSpec.content →
        (∀ v ∈ G, ∀ e ∈ v.comparedTrees, ∀ kind, ¬ e.Compares (.unsupported kind)) →
        diffValues (some p.resolve) (some q.resolve) =
          added.map fun w => ⟨.minor, .valueAdded .const, none, some w.snippet⟩) ∧
    (ValueSpec.usesIota G = false → ValueSpec.usesIota H = false →
      before' = before → after' = after →
      (H.map ValueSpec.content).Perm (G.map ValueSpec.content) →
      (∀ v ∈ G, ∀ e ∈ v.comparedTrees, ∀ kind, ¬ e.Compares (.unsupported kind)) →
      diffValues (some p.resolve) (some q.resolve) = []) := by
  have hkeyOf : ∀ {K : List ValueSpec} {i : Nat} {v : ValueSpec} {name : String},
      ValueSpec.IsConstGroup K → K[i]? = some v → v.names.map Ident.name = [name] →
      v.key = (.const, [name]) := by
    intro K i v name hK hv hname
    rw [ValueSpec.key, hK.kind v (List.mem_of_getElem? hv)]
    exact congrArg (Prod.mk _) hname
  constructor
  · intro hGiota hHiota
    have hordinal : ∀ i j, ValueSpec.ordinalAt G i = ValueSpec.ordinalAt H j ↔ i = j := by
      simp [ValueSpec.ordinalAt, hGiota, hHiota]
    refine ⟨?_, ?_, ?_⟩
    · intro i j v w name hv hw hvname hwname hne
      have hvkey := hkeyOf hG hv hvname
      have hwkey := hkeyOf hH hw hwname
      have hvmem := List.mem_of_getElem? hv
      have hwmem := List.mem_of_getElem? hw
      have hchanged : ¬ ((ValueSpec.numberedAt G i v).resolve p.scope).same
          ((ValueSpec.numberedAt H j w).resolve q.scope) = true := by
        rw [ValueSpec.same_numberedAt_iff hG hH hvmem hwmem (hwkey.trans hvkey.symm), hordinal]
        exact fun h => hne h.1
      have hconst : ((ValueSpec.numberedAt G i v).resolve p.scope).kind = .const :=
        hG.kind v hvmem
      rw [about_diffValues hG hH hp hq hv hw hvkey hwkey, valueChange, if_neg hchanged, hconst,
        ValueSpec.snippet_numberedAt, ValueSpec.snippet_numberedAt]
      rfl
    · intro i v w name hv hw hvname hwname
      have hvkey := hkeyOf hG hv hvname
      have hwkey := hkeyOf hH hw hwname
      have hsame := ValueSpec.same_numberedAt_iff (i := i) (j := i) hG hH (List.mem_of_getElem? hv)
        (List.mem_of_getElem? hw) (hwkey.trans hvkey.symm) p.scope q.scope
      rw [hordinal, eq_self_iff_true, true_and] at hsame
      rw [about_diffValues hG hH hp hq hv hw hvkey hwkey, ← hsame, valueChange]
      split <;> simp_all
    · rintro kept added rfl rfl rfl hcontent hknown
      refine diffValues_eq_additions hG hH hp hq (hcontent ▸ .refl _) ?_ hknown
      intro i j v w hv hw hkey
      -- The kept member at the place of the old one has its key, so it is the one.
      have hcontents := congrArg (fun cs => cs[i]?) hcontent
      simp only [List.getElem?_map, hv, Option.map_some] at hcontents
      obtain ⟨v', hv', hsaid⟩ := Option.map_eq_some_iff.mp hcontents
      have hplace : (kept ++ added)[i]? = some v' :=
        (List.getElem?_append_left (List.getElem?_eq_some_iff.mp hv').1).trans hv'
      have hkind' : v'.kind = v.kind :=
        (hH.kind v' (List.mem_of_getElem? hplace)).trans (hG.kind v (List.mem_of_getElem? hv)).symm
      have hkey' := ValueSpec.key_eq_of_content hkind' hsaid
      rw [hordinal, hH.place_unique hplace hw (hkey.trans hkey'.symm)]
  · intro hGiota hHiota hbefore hafter hcontent hknown
    subst hbefore hafter
    have hsplit : H = H ++ [] := (List.append_nil H).symm
    rw [hsplit] at hH hq
    refine diffValues_eq_additions hG hH hp hq hcontent ?_ hknown
    intro i j v w _ _ _
    rw [List.append_nil]
    simp [ValueSpec.ordinalAt, hGiota, hHiota]

end Comparison

/-- Constants of type `Level`, one a line. -/
def levelGroup (members : List (String × Expr)) : List ValueSpec :=
  members.mapIdx fun i (name, value) =>
    ⟨.const, [⟨name, none⟩], some (.ident ⟨"Level", none⟩), [value], false, none,
      ⟨"level.go", i + 6, 2⟩⟩

/-- The type of the constants. -/
def levelType : Decl :=
  .type ⟨⟨"Level", none⟩, [], false, .ident ⟨"int", none⟩, ⟨"level.go", 3, 6⟩⟩

/-- A package with a group of constants. -/
def levelRelease (members : List (String × Expr)) : Package :=
  ⟨"level", [⟨"level.go", "level",
    [levelType] ++ (ValueSpec.numberGroup (levelGroup members)).map .value⟩]⟩

/-- A reference or a predeclared name. -/
def levelName (name : String) : Expr := .ident ⟨name, none⟩

/-- The package around the constants. -/
theorem levelRelease_around (members : List (String × Expr))
    (h : ∀ v ∈ levelGroup members, ∀ x ∈ v.names, x.name ≠ "Level") :
    (levelRelease members).Around [levelType] (levelGroup members) [] where
  decls := by simp [levelRelease, Package.decls]
  no_value := by simp [levelType]
  fresh := by
    intro v hv x hx d hd b hb
    obtain rfl : d = levelType := by simpa using hd
    rw [levelType] at hb
    generalize hname : x.name = name at hb
    cases hb
    exact h v hv x hx hname

/-- The group is one of constants. -/
theorem levelGroup_isConstGroup (members : List (String × Expr))
    (hexported : ∀ v ∈ levelGroup members, ∀ x ∈ v.names, x.isExported = true)
    (hdistinct : ((levelGroup members).map ValueSpec.key).Nodup)
    (hopen : ∀ v ∈ levelGroup members, ∀ x ∈ (Decl.value v).idents, x.isBound = false) :
    ValueSpec.IsConstGroup (levelGroup members) where
  kind := by
    intro v hv
    obtain ⟨i, hi, rfl⟩ := List.mem_mapIdx.mp hv
    rfl
  exported := by
    intro v hv
    obtain ⟨i, hi, rfl⟩ := List.mem_mapIdx.mp hv
    exact ⟨_, rfl, hexported _ hv _ (List.mem_singleton_self _)⟩
  distinct := hdistinct
  unbound := hopen

/-- Levels that are counted, and one that is named after another. -/
def countedLevels : List (String × Expr) :=
  [("Unset", levelName "iota"), ("Low", levelName "iota"), ("High", levelName "iota"),
    ("Max", levelName "High")]

/-- Two levels have changed places. -/
def swappedLevels : List (String × Expr) :=
  [("Unset", levelName "iota"), ("High", levelName "iota"), ("Low", levelName "iota"),
    ("Max", levelName "High")]

/-- Levels that are not counted. -/
def plainLevels : List (String × Expr) :=
  [("Low", .lit ⟨.int, "1"⟩), ("High", .lit ⟨.int, "2"⟩)]

/-- Of the counted levels that change places, the first is left alone and the last changes with the
one it is named after; a level at the end is an addition; plain levels may change places. -/
theorem constant_ordinals_levels :
    (ValueSpec.IsConstGroup (levelGroup countedLevels) ∧
      (levelRelease countedLevels).Around [levelType] (levelGroup countedLevels) [] ∧
      ValueSpec.usesIota (levelGroup countedLevels) = true) ∧
    Diff.about (diffValues (some (levelRelease countedLevels).resolve)
        (some (levelRelease swappedLevels).resolve)) "Low" =
      [⟨.major, .valueChanged .const,
        some ⟨"Low", ⟨"level.go", 7, 2⟩, "const Low Level = iota"⟩,
        some ⟨"Low", ⟨"level.go", 8, 2⟩, "const Low Level = iota"⟩⟩] ∧
    Diff.about (diffValues (some (levelRelease countedLevels).resolve)
        (some (levelRelease swappedLevels).resolve)) "Unset" = [] ∧
    Diff.about (diffValues (some (levelRelease countedLevels).resolve)
        (some (levelRelease swappedLevels).resolve)) "Max" ≠ [] ∧
    diffValues (some (levelRelease countedLevels).resolve)
        (some (levelRelease (countedLevels ++ [("Top", levelName "iota")])).resolve) =
      [⟨.minor, .valueAdded .const, none,
        some ⟨"Top", ⟨"level.go", 10, 2⟩, "const Top Level = iota"⟩⟩] ∧
    diffValues (some (levelRelease plainLevels).resolve)
      (some (levelRelease plainLevels.reverse).resolve) = [] := by
  have hcounted := levelGroup_isConstGroup countedLevels (by decide) (by decide) (by decide)
  have hswapped := levelGroup_isConstGroup swappedLevels (by decide) (by decide) (by decide)
  have hgrown := levelGroup_isConstGroup (countedLevels ++ [("Top", levelName "iota")]) (by decide)
    (by decide) (by decide)
  have hplain := levelGroup_isConstGroup plainLevels (by decide) (by decide) (by decide)
  have hreversed := levelGroup_isConstGroup plainLevels.reverse (by decide) (by decide) (by decide)
  have hsince := levelRelease_around countedLevels (by decide)
  have hplace := constant_ordinals hcounted hswapped hsince
    (levelRelease_around swappedLevels (by decide))
  have hgrowth := constant_ordinals hcounted hgrown hsince
    (levelRelease_around (countedLevels ++ [("Top", levelName "iota")]) (by decide))
  have horder := constant_ordinals hplain hreversed (levelRelease_around plainLevels (by decide))
    (levelRelease_around plainLevels.reverse (by decide))
  have hknown : ∀ members : List (String × Expr),
      (∀ v ∈ levelGroup members, ∀ e ∈ v.comparedTrees, e.same e = true) →
      ∀ v ∈ levelGroup members, ∀ e ∈ v.comparedTrees, ∀ kind, ¬ e.Compares (.unsupported kind) :=
    fun members h v hv e he => (Expr.same_self_iff e).mp (h v hv e he)
  obtain ⟨hmoved, hkept, -⟩ := hplace.1 (by decide) (by decide)
  refine ⟨⟨hcounted, hsince, by decide⟩, ?_, ?_, ?_, ?_, ?_⟩
  · exact hmoved 1 2 _ _ "Low" rfl rfl rfl rfl (by decide)
  · exact (hkept 0 _ _ "Unset" rfl rfl rfl rfl).mpr (by decide)
  · exact mt (hkept 3 _ _ "Max" rfl rfl rfl rfl).mp (by decide)
  · exact (hgrowth.1 (by decide) (by decide)).2.2 (levelGroup countedLevels) _ rfl rfl rfl rfl
      (hknown _ (by decide))
  · exact horder.2 (by decide) (by decide) rfl rfl (List.Perm.swap _ _ _) (hknown _ (by decide))

end GoSurface
