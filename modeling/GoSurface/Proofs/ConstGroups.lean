/-
# Groups of constants

In a group of constants a declaration may be written with names alone.  It then repeats the type and
the values of the one before it, which may itself be a repetition.  The group is filled in from left
to right, and numbered afterwards if anything in it, repetitions included, mentions `iota`.

* `ValueSpec.inForce`: the type and the values that hold after a row of declarations;
* `ValueSpec.getElem?_repeatGroup`: each declaration is filled in with what is in force before it;
* `ValueSpec.Inherits`: type and values come from the nearest declaration that is written with any;
* `ValueSpec.repeatGroup_set`, `ValueSpec.numberGroup_set`: a repetition written out;
* `ValueSpec.constGroup_fills_in_and_numbers`: the law.
-/
import GoSurface.Proofs.Ordinals

namespace GoSurface

/-! ## What is in force -/

/-- What a declaration gives its names: a type and values. -/
def ValueSpec.body (s : ValueSpec) : Option Expr × List Expr :=
  (s.type, s.values)

/-- The declaration with another type and other values. -/
def ValueSpec.withBody (s : ValueSpec) (body : Option Expr × List Expr) : ValueSpec :=
  { s with type := body.1, values := body.2 }

/-- What is in force after a declaration: its own type and values, or those from before if it is
written with names alone. -/
def ValueSpec.bodyAfter (before : Option Expr × List Expr) (s : ValueSpec) :
    Option Expr × List Expr :=
  if s.isBare then before else s.body

/-- What is in force after a row of declarations. -/
def ValueSpec.inForce (row : List ValueSpec) : Option Expr × List Expr :=
  row.foldl ValueSpec.bodyAfter (none, [])

/-- The declaration, with what is in force before it if it is written with names alone. -/
def ValueSpec.filledIn (before : Option Expr × List Expr) (s : ValueSpec) : ValueSpec :=
  if s.isBare then { s.withBody before with implicit := true } else s

/-- A declaration of a group filled in; there is nothing that the first one could repeat. -/
def ValueSpec.filledAt (group : List ValueSpec) (i : Nat) (s : ValueSpec) : ValueSpec :=
  if i = 0 then s else s.filledIn (ValueSpec.inForce (group.take i))

theorem ValueSpec.isBare_iff {s : ValueSpec} :
    s.isBare = true ↔ s.type = none ∧ s.values = [] := by
  simp [ValueSpec.isBare, and_comm]

theorem ValueSpec.inForce_concat (row : List ValueSpec) (s : ValueSpec) :
    ValueSpec.inForce (row ++ [s]) = s.bodyAfter (ValueSpec.inForce row) := by
  rw [ValueSpec.inForce, List.foldl_append]
  rfl

theorem ValueSpec.body_filledIn (before : Option Expr × List Expr) (s : ValueSpec) :
    (s.filledIn before).body = s.bodyAfter before := by
  cases h : s.isBare <;> simp [ValueSpec.filledIn, ValueSpec.bodyAfter, h, ValueSpec.body,
    ValueSpec.withBody]

theorem ValueSpec.bodyAfter_body (s : ValueSpec) : s.bodyAfter s.body = s.body :=
  ite_self s.body

/-! ## Filling in -/

/-- The loop keeps what is in force in the declaration before, so every declaration is filled in
with what all those before it leave in force. -/
theorem ValueSpec.getElem?_repeatAfter {row : List ValueSpec} {previous : ValueSpec}
    (h : previous.body = ValueSpec.inForce row) (rest : List ValueSpec) (i : Nat) :
    (ValueSpec.repeatAfter previous rest)[i]? =
      rest[i]?.map (ValueSpec.filledIn (ValueSpec.inForce (row ++ rest.take i))) := by
  induction rest generalizing row previous i with
  | nil => rfl
  | cons s rest ih =>
    have hstep : s.repeating previous = s.filledIn (ValueSpec.inForce row) := by
      rw [← h]
      rfl
    have hnext : (s.repeating previous).body = ValueSpec.inForce (row ++ [s]) := by
      rw [hstep, ValueSpec.body_filledIn, ValueSpec.inForce_concat]
    cases i with
    | zero => simp [ValueSpec.repeatAfter, hstep]
    | succ i => simpa [ValueSpec.repeatAfter] using ih hnext i

/-- The declarations of a group are filled in place by place. -/
theorem ValueSpec.getElem?_repeatGroup (group : List ValueSpec) (i : Nat) :
    (ValueSpec.repeatGroup group)[i]? = group[i]?.map (ValueSpec.filledAt group i) := by
  cases group with
  | nil => rfl
  | cons s rest =>
    cases i with
    | zero => rfl
    | succ i =>
      have hfirst : s.body = ValueSpec.inForce [s] := by
        cases h : s.isBare with
        | true =>
          obtain ⟨htype, hvalues⟩ := ValueSpec.isBare_iff.mp h
          simp [ValueSpec.inForce, ValueSpec.bodyAfter, h, ValueSpec.body, htype, hvalues]
        | false => simp [ValueSpec.inForce, ValueSpec.bodyAfter, h]
      have hfilled : ValueSpec.filledAt (s :: rest) (i + 1) =
          ValueSpec.filledIn (ValueSpec.inForce ([s] ++ rest.take i)) := by
        funext t
        simp [ValueSpec.filledAt]
      rw [ValueSpec.repeatGroup, List.getElem?_cons_succ, List.getElem?_cons_succ, hfilled]
      exact ValueSpec.getElem?_repeatAfter hfirst rest i

/-- The type and the values are those of the nearest declaration before a place that is written
with a type or values, or none if all are written with names alone. -/
def ValueSpec.Inherits (group : List ValueSpec) (i : Nat) (body : Option Expr × List Expr) : Prop :=
  (∃ j u, j < i ∧ group[j]? = some u ∧ u.isBare = false ∧
    (∀ k w, j < k → k < i → group[k]? = some w → w.isBare = true) ∧ body = u.body) ∨
  (∀ k w, k < i → group[k]? = some w → w.isBare = true) ∧ body = (none, [])

/-- What is inherited at a place is inherited at the next one, unless a declaration with a type or
values stands between. -/
theorem ValueSpec.Inherits.next {group : List ValueSpec} {i : Nat} {body : Option Expr × List Expr}
    (h : ValueSpec.Inherits group i body) (hlast : ∀ w, group[i]? = some w → w.isBare = true) :
    ValueSpec.Inherits group (i + 1) body := by
  rcases h with ⟨j, u, hj, hu, hwritten, hbare, hbody⟩ | ⟨hbare, hbody⟩
  · refine Or.inl ⟨j, u, by omega, hu, hwritten, fun k w hjk hk hw => ?_, hbody⟩
    rcases Nat.lt_succ_iff_lt_or_eq.mp hk with hk | rfl
    · exact hbare k w hjk hk hw
    · exact hlast w hw
  · refine Or.inr ⟨fun k w hk hw => ?_, hbody⟩
    rcases Nat.lt_succ_iff_lt_or_eq.mp hk with hk | rfl
    · exact hbare k w hk hw
    · exact hlast w hw

/-- What is in force comes from the nearest declaration that is written with any. -/
theorem ValueSpec.inherits_inForce (group : List ValueSpec) (i : Nat) :
    ValueSpec.Inherits group i (ValueSpec.inForce (group.take i)) := by
  induction i with
  | zero => exact Or.inr ⟨fun k w hk => absurd hk (Nat.not_lt_zero k), rfl⟩
  | succ i ih =>
    rw [List.take_add_one]
    cases hs : group[i]? with
    | none =>
      -- The group ends before the place.
      rw [Option.toList_none, List.append_nil]
      exact ih.next fun w hw => by simp [hs] at hw
    | some s =>
      rw [Option.toList_some, ValueSpec.inForce_concat, ValueSpec.bodyAfter]
      split
      next hbare =>
        refine ih.next fun w hw => ?_
        rw [hs] at hw
        exact Option.some.inj hw ▸ hbare
      next hwritten =>
        exact Or.inl ⟨i, s, by omega, hs, Bool.eq_false_iff.mpr hwritten,
          fun k w hik hk => by omega, rfl⟩

/-- The first declaration and those written with a type or values stay as they are, and the others
take over what is in force. -/
theorem ValueSpec.filledAt_cases (group : List ValueSpec) (i : Nat) (s : ValueSpec) :
    (i = 0 ∨ s.isBare = false) ∧ ValueSpec.filledAt group i s = s ∨
      0 < i ∧ s.isBare = true ∧ ValueSpec.filledAt group i s =
        { s.withBody (ValueSpec.inForce (group.take i)) with implicit := true } := by
  rcases Nat.eq_zero_or_pos i with rfl | hi
  · exact Or.inl ⟨Or.inl rfl, rfl⟩
  · rw [ValueSpec.filledAt, if_neg hi.ne', ValueSpec.filledIn]
    cases s.isBare with
    | true => exact Or.inr ⟨hi, rfl, if_pos rfl⟩
    | false => exact Or.inl ⟨Or.inr rfl, if_neg Bool.false_ne_true⟩

theorem ValueSpec.filledAt_congr {group group' : List ValueSpec} {i : Nat}
    (h : ValueSpec.inForce (group'.take i) = ValueSpec.inForce (group.take i)) (s : ValueSpec) :
    ValueSpec.filledAt group' i s = ValueSpec.filledAt group i s := by
  rw [ValueSpec.filledAt, ValueSpec.filledAt, h]

/-! ## A repetition written out -/

/-- The declaration, marked as a repetition only if there was nothing to repeat. -/
def ValueSpec.remarked (s : ValueSpec) : ValueSpec :=
  { s with implicit := s.implicit && s.isBare }

/-- There is no mark to remove. -/
theorem ValueSpec.remarked_of_unmarked {s : ValueSpec} (h : s.implicit = false) :
    s.remarked = s := by
  cases s
  cases h
  rfl

/-- A declaration that leaves the same in force can take the place of another one. -/
theorem ValueSpec.inForce_take_set {group : List ValueSpec} {i : Nat} {s s' : ValueSpec}
    (hs : group[i]? = some s)
    (h : s'.bodyAfter (ValueSpec.inForce (group.take i)) =
      s.bodyAfter (ValueSpec.inForce (group.take i))) (k : Nat) :
    ValueSpec.inForce ((group.set i s').take k) = ValueSpec.inForce (group.take k) := by
  induction k with
  | zero => rfl
  | succ k ih =>
    rw [List.take_add_one, List.take_add_one]
    by_cases hki : k = i
    · subst hki
      have hset : (group.set k s')[k]? = some s' := by
        rw [List.getElem?_set_self (List.getElem?_eq_some_iff.mp hs).1]
      rw [hset, hs, Option.toList_some, Option.toList_some, ValueSpec.inForce_concat,
        ValueSpec.inForce_concat, ih, h]
    · rw [List.getElem?_set_ne (Ne.symm hki)]
      cases group[k]? with
      | none => simpa using ih
      | some w =>
        rw [Option.toList_some, ValueSpec.inForce_concat, ValueSpec.inForce_concat, ih]

/-- A declaration with what it repeats written out leaves the same in force. -/
theorem ValueSpec.bodyAfter_writtenOut (group : List ValueSpec) (i : Nat) (s : ValueSpec) :
    (s.withBody (ValueSpec.filledAt group i s).body).bodyAfter
        (ValueSpec.inForce (group.take i)) =
      s.bodyAfter (ValueSpec.inForce (group.take i)) := by
  rcases ValueSpec.filledAt_cases group i s with ⟨-, hsame⟩ | ⟨-, hbare, hfilled⟩
  · rw [hsame]
    rfl
  · rw [hfilled]
    calc (s.withBody (ValueSpec.inForce (group.take i))).bodyAfter _
        = ValueSpec.inForce (group.take i) := ValueSpec.bodyAfter_body (s.withBody _)
      _ = s.bodyAfter _ := (if_pos hbare).symm

/-- A declaration with what it repeats written out is filled in as before, but is marked only if
there was nothing to write out. -/
theorem ValueSpec.filledAt_writtenOut {group group' : List ValueSpec} {i : Nat} {s : ValueSpec}
    (hs : s.implicit = false)
    (h : ValueSpec.inForce (group'.take i) = ValueSpec.inForce (group.take i)) :
    ValueSpec.filledAt group' i (s.withBody (ValueSpec.filledAt group i s).body) =
      (ValueSpec.filledAt group i s).remarked := by
  rcases ValueSpec.filledAt_cases group i s with ⟨hkept, hsame⟩ | ⟨hi, hbare, hfilled⟩
  · have hwritten : s.withBody s.body = s := rfl
    rw [hsame, hwritten, ValueSpec.remarked_of_unmarked hs, ValueSpec.filledAt, ValueSpec.filledIn]
    rcases hkept with rfl | hkept <;> simp [*]
  · have hwritten : s.withBody (ValueSpec.filledAt group i s).body =
        s.withBody (ValueSpec.inForce (group.take i)) := by rw [hfilled]; rfl
    have hmarked : (ValueSpec.filledAt group i s).remarked =
        { s.withBody (ValueSpec.inForce (group.take i)) with
          implicit := (s.withBody (ValueSpec.inForce (group.take i))).isBare } := by
      rw [hfilled]
      rfl
    rw [hwritten, hmarked, ValueSpec.filledAt, if_neg hi.ne', h, ValueSpec.filledIn]
    split
    next hnone =>
      rw [hnone]
      rfl
    next hsome =>
      rw [Bool.eq_false_iff.mpr hsome, ← hs]
      rfl

/-- Writing out what a declaration repeats changes its mark and nothing else in the group. -/
theorem ValueSpec.repeatGroup_set {group : List ValueSpec} {i : Nat} {s r : ValueSpec}
    (hs : s.implicit = false) (hplace : group[i]? = some s)
    (hr : (ValueSpec.repeatGroup group)[i]? = some r) :
    ValueSpec.repeatGroup (group.set i (s.withBody r.body)) =
      (ValueSpec.repeatGroup group).set i r.remarked := by
  obtain rfl : ValueSpec.filledAt group i s = r := by
    rw [ValueSpec.getElem?_repeatGroup, hplace] at hr
    exact Option.some.inj hr
  have hforce := ValueSpec.inForce_take_set hplace (ValueSpec.bodyAfter_writtenOut group i s)
  have hlength := (List.getElem?_eq_some_iff.mp hplace).1
  have hfilledLength := (List.getElem?_eq_some_iff.mp hr).1
  apply List.ext_getElem?
  intro k
  rw [ValueSpec.getElem?_repeatGroup]
  by_cases hki : k = i
  · subst hki
    rw [List.getElem?_set_self hlength, List.getElem?_set_self hfilledLength, Option.map_some,
      ValueSpec.filledAt_writtenOut hs (hforce k)]
  · rw [List.getElem?_set_ne (Ne.symm hki), List.getElem?_set_ne (Ne.symm hki),
      ValueSpec.getElem?_repeatGroup]
    cases group[k]? with
    | none => rfl
    | some w => exact congrArg some (ValueSpec.filledAt_congr (hforce k) w)

/-! ## Numbering -/

/-- Some value of some declaration mentions `iota`, at any depth, and nothing is known that this
name stands for. -/
def ValueSpec.MentionsIota (group : List ValueSpec) : Prop :=
  ∃ s ∈ group, ∃ e ∈ s.values, ∃ x ∈ e.refs, x.name = "iota" ∧ x.binding = none

theorem ValueSpec.usesIota_iff {group : List ValueSpec} :
    ValueSpec.usesIota group = true ↔ ValueSpec.MentionsIota group := by
  simp [ValueSpec.usesIota, ValueSpec.MentionsIota, Expr.mentions]

/-- Whether a group is numbered depends on its values alone. -/
theorem ValueSpec.usesIota_congr {group group' : List ValueSpec}
    (h : group'.map ValueSpec.values = group.map ValueSpec.values) :
    ValueSpec.usesIota group' = ValueSpec.usesIota group := by
  have hvalues : ∀ g : List ValueSpec,
      ValueSpec.usesIota g = (g.map ValueSpec.values).any fun es => es.any (·.mentions "iota") :=
    fun g => by rw [List.any_map]; rfl
  rw [hvalues, hvalues, h]

theorem ValueSpec.map_values_numberGroup (group : List ValueSpec) :
    (ValueSpec.numberGroup group).map ValueSpec.values = group.map ValueSpec.values := by
  apply List.ext_getElem?
  intro i
  simp only [ValueSpec.numberGroup, List.getElem?_map, List.getElem?_mapIdx, Option.map_map]
  rfl

/-- A declaration can be replaced before or after numbering, if its values stay. -/
theorem ValueSpec.numberGroup_set {group : List ValueSpec} {i : Nat} {s s' : ValueSpec}
    (hplace : group[i]? = some s) (hvalues : s'.values = s.values) :
    ValueSpec.numberGroup (group.set i s') =
      (ValueSpec.numberGroup group).set i (ValueSpec.numberedAt group i s') := by
  have huses : ValueSpec.usesIota (group.set i s') = ValueSpec.usesIota group := by
    have hvaluesAt : (group.map ValueSpec.values)[i]? = some s.values := by
      rw [List.getElem?_map, hplace, Option.map_some]
    obtain ⟨hi, hself⟩ := List.getElem?_eq_some_iff.mp hvaluesAt
    apply ValueSpec.usesIota_congr
    rw [List.map_set, hvalues, ← hself, List.set_getElem_self]
  have hnumbered : ValueSpec.numberedAt (group.set i s') = ValueSpec.numberedAt group := by
    funext k v
    rw [ValueSpec.numberedAt, ValueSpec.numberedAt, ValueSpec.ordinalAt, ValueSpec.ordinalAt,
      huses]
  rw [ValueSpec.numberGroup_eq, ValueSpec.numberGroup_eq, hnumbered, List.mapIdx_set]

/-- A group of constants place by place. -/
theorem ValueSpec.getElem?_constGroup (group : List ValueSpec) (i : Nat) :
    (ValueSpec.constGroup group)[i]? = group[i]?.map fun s =>
      ValueSpec.numberedAt (ValueSpec.repeatGroup group) i (ValueSpec.filledAt group i s) := by
  rw [ValueSpec.constGroup, ValueSpec.numberGroup_eq, List.getElem?_mapIdx,
    ValueSpec.getElem?_repeatGroup, Option.map_map]
  rfl

/-- Filling in and numbering keep the places. -/
theorem ValueSpec.length_constGroup (group : List ValueSpec) :
    (ValueSpec.constGroup group).length = group.length := by
  have hnone : ∀ i, group.length ≤ i ↔ (ValueSpec.constGroup group).length ≤ i := by
    intro i
    rw [← List.getElem?_eq_none_iff, ← List.getElem?_eq_none_iff, ValueSpec.getElem?_constGroup,
      Option.map_eq_none_iff]
  exact Nat.le_antisymm ((hnone _).mp le_rfl) ((hnone _).mpr le_rfl)

/-- A group is numbered if it mentions `iota` once it has been filled in. -/
theorem ValueSpec.usesIota_repeatGroup_iff {group : List ValueSpec} :
    ValueSpec.usesIota (ValueSpec.repeatGroup group) = true ↔
      ValueSpec.MentionsIota (ValueSpec.constGroup group) := by
  rw [← ValueSpec.usesIota_iff, ValueSpec.constGroup,
    ValueSpec.usesIota_congr (ValueSpec.map_values_numberGroup _)]

/-- The first declaration and those written with a type or values are only numbered, and the others
take over what is in force. -/
theorem ValueSpec.constGroup_cases {group : List ValueSpec} {i : Nat} {s t : ValueSpec}
    (hs : group[i]? = some s) (ht : (ValueSpec.constGroup group)[i]? = some t) :
    (i = 0 ∨ s.isBare = false) ∧ t = { s with ordinal := t.ordinal } ∨
      0 < i ∧ s.isBare = true ∧ t =
        { s.withBody (ValueSpec.inForce (group.take i)) with
          implicit := true, ordinal := t.ordinal } := by
  rw [ValueSpec.getElem?_constGroup, hs] at ht
  obtain rfl : ValueSpec.numberedAt (ValueSpec.repeatGroup group) i
      (ValueSpec.filledAt group i s) = t := Option.some.inj ht
  rcases ValueSpec.filledAt_cases group i s with ⟨hkept, hsame⟩ | ⟨hi, hbare, hfilled⟩
  · exact Or.inl ⟨hkept, by rw [hsame]; rfl⟩
  · exact Or.inr ⟨hi, hbare, by rw [hfilled]; rfl⟩

/-- The members of a group that mentions `iota` are numbered by their places, and those of any other
are not numbered. -/
theorem ValueSpec.ordinal_constGroup {group : List ValueSpec} {i : Nat} {t : ValueSpec}
    (ht : (ValueSpec.constGroup group)[i]? = some t) :
    (ValueSpec.MentionsIota (ValueSpec.constGroup group) → t.ordinal = some i) ∧
      (¬ ValueSpec.MentionsIota (ValueSpec.constGroup group) → t.ordinal = none) := by
  rw [ValueSpec.getElem?_constGroup] at ht
  obtain ⟨s, -, rfl⟩ := Option.map_eq_some_iff.mp ht
  rw [← ValueSpec.usesIota_repeatGroup_iff]
  exact ⟨fun h => if_pos h, fun h => if_neg h⟩

/-- Writing out what a declaration repeats changes its mark and nothing else. -/
theorem ValueSpec.constGroup_set {group : List ValueSpec} {i : Nat} {s t : ValueSpec}
    (hs : s.implicit = false) (hplace : group[i]? = some s)
    (ht : (ValueSpec.constGroup group)[i]? = some t) :
    ValueSpec.constGroup (group.set i (s.withBody t.body)) =
      (ValueSpec.constGroup group).set i t.remarked := by
  rw [ValueSpec.getElem?_constGroup, hplace] at ht
  obtain rfl := Option.some.inj ht
  have hr : (ValueSpec.repeatGroup group)[i]? = some (ValueSpec.filledAt group i s) := by
    rw [ValueSpec.getElem?_repeatGroup, hplace, Option.map_some]
  calc ValueSpec.constGroup (group.set i (s.withBody (ValueSpec.filledAt group i s).body))
      = ValueSpec.numberGroup
          ((ValueSpec.repeatGroup group).set i (ValueSpec.filledAt group i s).remarked) := by
        rw [ValueSpec.constGroup, ValueSpec.repeatGroup_set hs hplace hr]
    _ = _ := ValueSpec.numberGroup_set hr rfl

/-! ## The law -/

/-- **A group of constants.**  Of declarations as they are written, those after the first that have
neither type nor values are marked, and take over the type and the values of the nearest one before
that has any; all others stay as they are.  If the group then mentions `iota` all its members are
numbered by their places, and otherwise none is.  Writing out what one of them repeats changes its
mark alone. -/
theorem ValueSpec.constGroup_fills_in_and_numbers (group : List ValueSpec)
    (hwritten : ∀ s ∈ group, s.implicit = false) :
    (ValueSpec.constGroup group).length = group.length ∧
    (∀ (i : Nat) (s t : ValueSpec), group[i]? = some s →
      (ValueSpec.constGroup group)[i]? = some t →
      (t.implicit = true ↔ 0 < i ∧ s.type = none ∧ s.values = []) ∧
      (t.implicit = true → ValueSpec.Inherits group i (t.type, t.values) ∧
        t = { s with type := t.type, values := t.values, implicit := true, ordinal := t.ordinal }) ∧
      (t.implicit = false → t = { s with ordinal := t.ordinal }) ∧
      (ValueSpec.MentionsIota (ValueSpec.constGroup group) → t.ordinal = some i) ∧
      (¬ ValueSpec.MentionsIota (ValueSpec.constGroup group) → t.ordinal = none) ∧
      ValueSpec.constGroup (group.set i { s with type := t.type, values := t.values }) =
        (ValueSpec.constGroup group).set i { t with implicit := t.implicit && t.isBare }) := by
  refine ⟨ValueSpec.length_constGroup group, fun i s t hs ht => ?_⟩
  have hunmarked := hwritten s (List.mem_of_getElem? hs)
  obtain ⟨hnumbered, hplain⟩ := ValueSpec.ordinal_constGroup ht
  have hcopy := ValueSpec.constGroup_set hunmarked hs ht
  rcases ValueSpec.constGroup_cases hs ht with ⟨hkept, hsame⟩ | ⟨hi, hbare, hfilled⟩
  · have hmark : t.implicit = false := by rw [hsame, hunmarked]
    refine ⟨?_, fun h => absurd (hmark.symm.trans h) Bool.false_ne_true, fun _ => hsame, hnumbered,
      hplain, hcopy⟩
    rw [hmark, ← ValueSpec.isBare_iff]
    rcases hkept with rfl | hkept <;> simp [*]
  · have hmark : t.implicit = true := by rw [hfilled]
    have hbody : (t.type, t.values) = ValueSpec.inForce (group.take i) := by rw [hfilled]; rfl
    refine ⟨iff_of_true hmark ⟨hi, ValueSpec.isBare_iff.mp hbare⟩, fun _ => ⟨?_, ?_⟩,
      fun h => absurd (hmark.symm.trans h) Bool.false_ne_true.symm, hnumbered, hplain, hcopy⟩
    · rw [hbody]
      exact ValueSpec.inherits_inForce group i
    · calc t = { s.withBody (ValueSpec.inForce (group.take i)) with
              implicit := true, ordinal := t.ordinal } := hfilled
        _ = { s.withBody (t.type, t.values) with implicit := true, ordinal := t.ordinal } := by
            rw [hbody]

/-- The group `A; B; C T = iota; D; E; F = 1; G`, without values for its first two members and with
two runs of repetitions. -/
def abbreviatedGroup : List ValueSpec :=
  let member (name : String) (type : Option Expr) (values : List Expr) : ValueSpec :=
    ⟨.const, [⟨name, none⟩], type, values, false, none, ⟨"a.go", 3, 2⟩⟩
  [member "A" none [], member "B" none [],
    member "C" (some (.ident ⟨"T", none⟩)) [.ident ⟨"iota", none⟩],
    member "D" none [], member "E" none [],
    member "F" none [.lit ⟨.int, "1"⟩], member "G" none []]

/-- `B` repeats nothing, `E` repeats `C` through `D`, and `G` repeats `F`; all are numbered.
Writing out `E` takes its mark away and leaves the rest of the group alone. -/
theorem abbreviatedGroup_fills_in_and_numbers :
    let filled := ValueSpec.constGroup abbreviatedGroup
    (∀ s ∈ abbreviatedGroup, s.implicit = false) ∧
    filled.length = 7 ∧
    filled.map (·.implicit) = [false, true, false, true, true, false, true] ∧
    (∀ t, filled[4]? = some t → t.implicit = true ∧ t.ordinal = some 4 ∧
      ValueSpec.Inherits abbreviatedGroup 4 (t.type, t.values) ∧
      (t.type, t.values) = (some (.ident ⟨"T", none⟩), [.ident ⟨"iota", none⟩]) ∧
      ∀ s, abbreviatedGroup[4]? = some s → ValueSpec.constGroup
          (abbreviatedGroup.set 4 { s with type := t.type, values := t.values }) =
        filled.set 4 { t with implicit := false }) := by
  have hwritten : ∀ s ∈ abbreviatedGroup, s.implicit = false := by decide
  obtain ⟨hlength, hplaces⟩ := ValueSpec.constGroup_fills_in_and_numbers abbreviatedGroup hwritten
  refine ⟨hwritten, hlength, rfl, fun t ht => ?_⟩
  obtain ⟨hmark, hinherits, -, hnumbered, -, -⟩ := hplaces 4 _ t rfl ht
  have himplicit : t.implicit = true := hmark.mpr (by decide)
  have hiota : ValueSpec.MentionsIota (ValueSpec.constGroup abbreviatedGroup) :=
    ValueSpec.usesIota_iff.mp rfl
  refine ⟨himplicit, hnumbered hiota, (hinherits himplicit).1, ?_, fun s hs => ?_⟩
  · obtain rfl := Option.some.inj ht
    rfl
  · obtain ⟨-, -, -, -, -, hcopy⟩ := hplaces 4 s t hs ht
    obtain rfl := Option.some.inj ht
    exact hcopy

end GoSurface
