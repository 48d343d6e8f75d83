/-
# Where a chain of names ends

A declaration whose right-hand side is a bare name leads to the declaration of that name, this one
may lead on, and so forth.  Types may be declared twice or not at all, names may lead in a circle,
and a circle may be entered from outside.  Every chain ends all the same, because each hop uses up a
declared name, and where it ends there is nothing new to follow.

* `Package.Trail`: the hops from a right-hand side until there is none;
* `Package.exists_trail`, `Package.Trail.unique`: there is one such row of hops, and no other;
* `Package.Trail.length_le`: there are at most as many as names of types;
* `Package.Trail.restart`: a trail that ends without a circle can be entered anywhere;
* `Package.follow_settles`: following names comes to an end, and where.
-/
import GoSurface.Compare.Types
import GoSurface.Proofs.Following
import Mathlib.Data.Finset.Card

namespace GoSurface

namespace Package

/-! ## Trails -/

/-- The hops from a right-hand side until there is none.  A hop needs a bare name of a type that has
not been met, and leads to the first declaration of that name. -/
inductive Trail (p : Package) : List String → Expr → List TypeSpec → Prop
  | stop {visited : List String} {e : Expr}
      (h : ∀ name, e.namedType? = some name → name ∉ visited → p.typeSpec? name = none) :
      Trail p visited e []
  | hop {visited : List String} {e : Expr} {name : String} {t : TypeSpec} {rest : List TypeSpec}
      (hname : e.namedType? = some name) (hnew : name ∉ visited)
      (hfind : p.typeSpec? name = some t) (hrest : Trail p (name :: visited) t.type rest) :
      Trail p visited e (t :: rest)

/-- The names under which the package declares types. -/
def typeNames (p : Package) : Finset String :=
  (p.types.map TypeSpec.key).toFinset

theorem key_of_typeSpec? {p : Package} {name : String} {t : TypeSpec}
    (h : p.typeSpec? name = some t) : t ∈ p.types ∧ t.key = name :=
  ⟨List.mem_of_find?_eq_some h, by simpa [TypeSpec.key] using List.find?_some h⟩

/-- From every right-hand side there is a trail. -/
theorem exists_trail (p : Package) (visited : List String) (e : Expr) :
    ∃ ts, p.Trail visited e ts := by
  -- Each hop leaves fewer names to be met.
  induction hunmet : p.unmet visited using Nat.strongRecOn generalizing visited e with
  | ind unmet ih =>
    cases hstep : p.next? visited e with
    | none => exact ⟨[], .stop (next?_eq_none_iff.mp hstep)⟩
    | some step =>
      obtain ⟨name, t⟩ := step
      obtain ⟨hname, hnew, hfind⟩ := next?_eq_some_iff.mp hstep
      obtain ⟨rest, hrest⟩ := ih _ (hunmet ▸ unmet_lt_of_next? hstep) (name :: visited) t.type rfl
      exact ⟨t :: rest, .hop hname hnew hfind hrest⟩

namespace Trail

variable {p : Package} {visited : List String} {e : Expr} {ts us : List TypeSpec}

/-- From a right-hand side there is no other trail. -/
theorem unique (h : p.Trail visited e ts) (h' : p.Trail visited e us) : us = ts := by
  induction h generalizing us with
  | stop hstop =>
    cases h' with
    | stop _ => rfl
    | hop hname hnew hfind _ =>
      rw [hstop _ hname hnew] at hfind
      cases hfind
  | hop hname hnew hfind _ ih =>
    cases h' with
    | stop hstop =>
      rw [hstop _ hname hnew] at hfind
      cases hfind
    | hop hname' _ hfind' hrest' =>
      obtain rfl := Option.some.inj (hname.symm.trans hname')
      obtain rfl := Option.some.inj (hfind.symm.trans hfind')
      rw [ih hrest']

/-- A trail passes types of the package whose names have not been met. -/
theorem mem_types (h : p.Trail visited e ts) : ∀ t ∈ ts, t ∈ p.types ∧ t.key ∉ visited := by
  induction h with
  | stop _ => simp
  | hop _ hnew hfind _ ih =>
    obtain ⟨hmem, rfl⟩ := key_of_typeSpec? hfind
    rw [List.forall_mem_cons]
    refine ⟨⟨hmem, hnew⟩, ?_⟩
    intro u hu
    exact ⟨(ih u hu).1, fun hmet => (ih u hu).2 (List.mem_cons_of_mem _ hmet)⟩

/-- A trail passes no name twice. -/
theorem nodup (h : p.Trail visited e ts) : (ts.map TypeSpec.key).Nodup := by
  induction h with
  | stop _ => exact List.nodup_nil
  | hop _ _ hfind hrest ih =>
    obtain ⟨-, rfl⟩ := key_of_typeSpec? hfind
    rw [List.map_cons, List.nodup_cons]
    refine ⟨?_, ih⟩
    intro hmem
    obtain ⟨u, hu, hkey⟩ := List.mem_map.mp hmem
    exact (hrest.mem_types u hu).2 (hkey ▸ List.mem_cons_self)

/-- A trail has at most as many hops as the package has names of types. -/
theorem length_le (h : p.Trail visited e ts) : ts.length ≤ p.typeNames.card := by
  have hsub : (ts.map TypeSpec.key).toFinset ⊆ p.typeNames := by
    intro name hname
    obtain ⟨t, ht, rfl⟩ := List.mem_map.mp (List.mem_toFinset.mp hname)
    exact List.mem_toFinset.mpr (List.mem_map_of_mem (h.mem_types t ht).1)
  calc ts.length = (ts.map TypeSpec.key).toFinset.card := by
        rw [List.toFinset_card_of_nodup h.nodup, List.length_map]
    _ ≤ p.typeNames.card := Finset.card_le_card hsub

/-- Following names goes along the trail and stops at its last declaration, as soon as there are
enough hops. -/
theorem followFrom_eq {s : TypeSpec} (h : p.Trail visited s.type ts) {hops : Nat}
    (hhops : ts.length ≤ hops) (via : Bool) :
    p.followFrom hops visited ⟨s.typeParams, s.type, via⟩ =
      ⟨(ts.getLastD s).typeParams, (ts.getLastD s).type, via || !ts.isEmpty⟩ := by
  induction ts generalizing visited s hops via with
  | nil =>
    cases h with
    | stop hstop =>
      have hnone : p.next? visited s.type = none := next?_eq_none_iff.mpr hstop
      cases hops with
      | zero => simp [followFrom]
      | succ hops => simp [followFrom, hnone]
  | cons t rest ih =>
    cases h with
    | @hop _ _ name _ _ hname hnew hfind hrest =>
      have hstep : p.next? visited s.type = some (name, t) :=
        next?_eq_some_iff.mpr ⟨hname, hnew, hfind⟩
      obtain ⟨hops, rfl⟩ : ∃ n, hops = n + 1 :=
        Nat.exists_eq_succ_of_ne_zero (by rw [List.length_cons] at hhops; omega)
      rw [followFrom, hstep]
      simp only [ih hrest (Nat.le_of_succ_le_succ hhops) true, List.getLastD_cons]
      simp

/-- Following names from a declaration ends where its trail ends. -/
theorem follow_eq {s : TypeSpec} (h : p.Trail [s.key] s.type ts) :
    p.follow s = ⟨(ts.getLastD s).typeParams, (ts.getLastD s).type, !ts.isEmpty⟩ := by
  have hcard : p.typeNames.card ≤ p.types.length :=
    (List.toFinset_card_le _).trans_eq (List.length_map _)
  have hend := h.followFrom_eq (h.length_le.trans hcard) false
  rw [Bool.false_or] at hend
  exact hend

/-- Where a trail ends, a name that is declared has been met. -/
theorem met_of_named {s : TypeSpec} (h : p.Trail visited s.type ts) {name : String} {t : TypeSpec}
    (hname : (ts.getLastD s).type.namedType? = some name) (hfind : p.typeSpec? name = some t) :
    name ∈ visited ∨ name ∈ ts.map TypeSpec.key := by
  induction ts generalizing visited s with
  | nil =>
    cases h with
    | stop hstop =>
      refine Or.inl ?_
      by_contra hnew
      rw [hstop name hname hnew] at hfind
      cases hfind
  | cons u rest ih =>
    cases h with
    | hop _ _ hu hrest =>
      obtain ⟨-, rfl⟩ := key_of_typeSpec? hu
      rw [List.getLastD_cons] at hname
      rw [List.map_cons, List.mem_cons]
      rcases ih hrest hname with hmet | hmet
      · rcases List.mem_cons.mp hmet with rfl | hmet
        · exact Or.inr (Or.inl rfl)
        · exact Or.inl hmet
      · exact Or.inr (Or.inr hmet)

/-- A trail is not empty exactly when the right-hand side leads to a declaration of a name that has
not been met. -/
theorem isEmpty_eq_false_iff (h : p.Trail visited e ts) :
    ts.isEmpty = false ↔
      ∃ name t, e.namedType? = some name ∧ name ∉ visited ∧ p.typeSpec? name = some t := by
  cases h with
  | stop hstop =>
    refine iff_of_false (by simp) ?_
    rintro ⟨name, t, hname, hnew, hfind⟩
    rw [hstop name hname hnew] at hfind
    cases hfind
  | hop hname hnew hfind _ => exact iff_of_true rfl ⟨_, _, hname, hnew, hfind⟩

/-! ## Entering a trail further on -/

/-- A trail that ends without a declared name can be walked with any other names met before, as long
as it does not pass them. -/
theorem restart {s : TypeSpec} (h : p.Trail visited s.type ts)
    (hopen : ∀ name, (ts.getLastD s).type.namedType? = some name → p.typeSpec? name = none)
    {visited' : List String} (hnew : ∀ t ∈ ts, t.key ∉ visited') :
    p.Trail visited' s.type ts := by
  induction ts generalizing visited visited' s with
  | nil => exact .stop fun name hname _ => hopen name hname
  | cons t rest ih =>
    cases h with
    | hop hname _ hfind hrest =>
      obtain ⟨-, rfl⟩ := key_of_typeSpec? hfind
      rw [List.forall_mem_cons] at hnew
      rw [List.getLastD_cons] at hopen
      refine .hop hname hnew.1 hfind (ih hrest hopen ?_)
      intro u hu hmet
      rcases List.mem_cons.mp hmet with hkey | hmet
      · exact (hrest.mem_types u hu).2 (hkey ▸ List.mem_cons_self)
      · exact hnew.2 u hu hmet

/-- The rest of a trail is a trail from the declaration before it, whose name has been met. -/
theorem drop {before after : List TypeSpec} {t : TypeSpec}
    (h : p.Trail visited e (before ++ t :: after)) :
    ∃ visited', t.key ∈ visited' ∧ p.Trail visited' t.type after := by
  induction before generalizing visited e with
  | nil =>
    cases h with
    | hop _ _ hfind hrest =>
      obtain ⟨-, rfl⟩ := key_of_typeSpec? hfind
      exact ⟨_, List.mem_cons_self, hrest⟩
  | cons u before ih =>
    cases h with
    | hop _ _ _ hrest => exact ih hrest

/-- From a declaration that a trail passes, the same type is reached, if the trail ends without a
declared name. -/
theorem follow_of_mem {s t : TypeSpec} (h : p.Trail [s.key] s.type ts)
    (hopen : ∀ name, (p.follow s).type.namedType? = some name → p.typeSpec? name = none)
    (ht : t ∈ ts) :
    (p.follow t).typeParams = (p.follow s).typeParams ∧ (p.follow t).type = (p.follow s).type := by
  obtain ⟨before, after, rfl⟩ := List.append_of_mem ht
  have hlast : (before ++ t :: after).getLastD s = after.getLastD t := by
    clear h hopen ht
    induction before generalizing s with
    | nil => rw [List.nil_append, List.getLastD_cons]
    | cons u before ih => rw [List.cons_append, List.getLastD_cons, ih]
  rw [h.follow_eq, hlast] at hopen ⊢
  obtain ⟨visited', hmet, hrest⟩ := h.drop
  have hown : p.Trail [t.key] t.type after := by
    refine hrest.restart hopen ?_
    intro u hu hkey
    exact (hrest.mem_types u hu).2 (List.mem_singleton.mp hkey ▸ hmet)
  rw [hown.follow_eq]
  exact ⟨rfl, rfl⟩

end Trail

/-! ## The law -/

/-- **Following names settles.**  From every declaration there is one trail, of at most as many hops
as the package has names of types, and any bound that allows these hops gives the same result.  This
is what the last declaration on the trail has, type parameters and type together.  If it is still
the name of a declared type, then this name has been met.  A name has been followed exactly when the
right-hand side is the name of another declared type.  If the names along the trail, the last one
included, are distinct, then every declaration on it stands for the same type. -/
theorem follow_settles (p : Package) (s : TypeSpec) :
    (∃! ts, p.Trail [s.key] s.type ts) ∧
    ∀ ts, p.Trail [s.key] s.type ts →
      ts.length ≤ p.typeNames.card ∧
      (∀ hops, ts.length ≤ hops →
        p.followFrom hops [s.key] ⟨s.typeParams, s.type, false⟩ = p.follow s) ∧
      (∀ t ∈ ts, t ∈ p.types) ∧
      (p.follow s).typeParams = (ts.getLastD s).typeParams ∧
      (p.follow s).type = (ts.getLastD s).type ∧
      (∀ name t, (p.follow s).type.namedType? = some name → p.typeSpec? name = some t →
        name = s.key ∨ name ∈ ts.map TypeSpec.key) ∧
      ((p.follow s).viaName = true ↔
        ∃ name t, s.type.namedType? = some name ∧ name ≠ s.key ∧ p.typeSpec? name = some t) ∧
      ((s.key :: ts.map TypeSpec.key ++ (p.follow s).type.namedType?.toList).Nodup →
        ∀ t ∈ s :: ts, (p.follow t).typeParams = (p.follow s).typeParams ∧
          (p.follow t).type = (p.follow s).type) := by
  obtain ⟨ts, hts⟩ := p.exists_trail [s.key] s.type
  refine ⟨⟨ts, hts, fun us hus => hts.unique hus⟩, ?_⟩
  intro ts hts
  have hend := hts.follow_eq
  have hmet : ∀ name t, (p.follow s).type.namedType? = some name → p.typeSpec? name = some t →
      name = s.key ∨ name ∈ ts.map TypeSpec.key := by
    intro name t hname hfind
    rw [hend] at hname
    rcases hts.met_of_named hname hfind with hown | hpassed
    · exact Or.inl (List.mem_singleton.mp hown)
    · exact Or.inr hpassed
  refine ⟨hts.length_le, ?_, fun t ht => (hts.mem_types t ht).1, by rw [hend], by rw [hend], hmet,
    ?_, ?_⟩
  · intro hops hhops
    rw [hts.followFrom_eq hhops, hend, Bool.false_or]
  · rw [hend]
    simp only [Bool.not_eq_true', hts.isEmpty_eq_false_iff, List.mem_singleton]
  · intro hnodup
    -- The last name has not been met, so nothing declares it.
    have hopen : ∀ name, (p.follow s).type.namedType? = some name → p.typeSpec? name = none := by
      intro name hname
      rw [hname, Option.toList_some, List.nodup_append] at hnodup
      by_contra hdeclared
      obtain ⟨t, hfind⟩ := Option.ne_none_iff_exists'.mp hdeclared
      have hmem : name ∈ s.key :: ts.map TypeSpec.key := List.mem_cons.mpr (hmet name t hname hfind)
      exact hnodup.2.2 name hmem name (List.mem_singleton_self name) rfl
    rw [List.forall_mem_cons]
    exact ⟨⟨rfl, rfl⟩, fun t ht => hts.follow_of_mem hopen ht⟩

end Package

/-- A type declaration whose right-hand side is the name of a type. -/
def renamedType (name target : String) (line : Nat) : TypeSpec :=
  ⟨⟨name, none⟩, [], false, .ident ⟨target, some ⟨.type, target, none⟩⟩, ⟨"watch.go", line, 6⟩⟩

/-- A struct at the end of a chain of names. -/
def wheelType : TypeSpec :=
  ⟨⟨"wheel", none⟩, [], false, .struct [⟨[⟨"Teeth", none⟩], .ident ⟨"int", none⟩, none⟩],
    ⟨"watch.go", 5, 6⟩⟩

/-- A package with a chain of names, two names that lead to each other, and a second declaration of
a name on the chain that leads into this circle. -/
def watchPackage : Package :=
  ⟨"watch", [⟨"watch.go", "watch",
    [.type (renamedType "Watch" "clockwork" 3), .type (renamedType "clockwork" "wheel" 4),
      .type wheelType, .type (renamedType "spring" "coil" 6),
      .type (renamedType "coil" "spring" 7), .type (renamedType "clockwork" "spring" 8)]⟩]⟩

/-- The chain takes two of the five names, and its middle stands for the same struct as its start.
The circle is left after one hop, at its own name. -/
theorem follow_settles_watch :
    watchPackage.Trail ["Watch"] (renamedType "Watch" "clockwork" 3).type
      [renamedType "clockwork" "wheel" 4, wheelType] ∧
    2 ≤ watchPackage.typeNames.card ∧
    (watchPackage.follow (renamedType "clockwork" "wheel" 4)).type =
      (watchPackage.follow (renamedType "Watch" "clockwork" 3)).type ∧
    watchPackage.Trail ["spring"] (renamedType "spring" "coil" 6).type
      [renamedType "coil" "spring" 7] ∧
    (watchPackage.follow (renamedType "spring" "coil" 6)).type.namedType? = some "spring" := by
  have hchain : watchPackage.Trail ["Watch"] (renamedType "Watch" "clockwork" 3).type
      [renamedType "clockwork" "wheel" 4, wheelType] := by
    refine .hop rfl (by decide) rfl (.hop rfl (by decide) rfl (.stop ?_))
    intro name hname
    cases hname
  have hcircle : watchPackage.Trail ["spring"] (renamedType "spring" "coil" 6).type
      [renamedType "coil" "spring" 7] := by
    refine .hop rfl (by decide) rfl (.stop ?_)
    intro name hname hnew
    cases hname
    exact absurd (by decide) hnew
  obtain ⟨hlength, -, -, -, -, -, -, hsame⟩ :=
    (Package.follow_settles watchPackage (renamedType "Watch" "clockwork" 3)).2 _ hchain
  obtain ⟨-, -, -, -, hend, -⟩ :=
    (Package.follow_settles watchPackage (renamedType "spring" "coil" 6)).2 _ hcircle
  refine ⟨hchain, hlength, ?_, hcircle, by rw [hend]; rfl⟩
  exact (hsame (by decide +kernel) _ (by simp)).2

end GoSurface
