/-
# Comparing the other way round

Going back from the second of two packages to the first, what was removed is added and what was
changed is changed, for the same reason.  There are two exceptions.  Nobody misses the methods of
unexported types, so these are added without ever being removed; and a struct that has grown one way
has lost fields the other way.

* `Reason.Mirrors`: the reasons that go together;
* `Decl.difference?_reversed`: two declarations differ in both directions or in none;
* `findings_reversed`: the findings in the two directions.
-/
import GoSurface.Proofs.Findings
import GoSurface.Proofs.Verdict

namespace GoSurface

/-! ## Reasons -/

/-- The reasons of a change and of the same change undone: growth is undone by a change of type,
everything else by a change of its own kind. -/
inductive Reason.Mirrors : Reason → Reason → Prop
  | same {r : Reason} : r ≠ .fieldsAppended → Reason.Mirrors r r
  | grown : Reason.Mirrors .fieldsAppended .typeChanged
  | shrunk : Reason.Mirrors .typeChanged .fieldsAppended

/-- Growth is undone by a change of type. -/
theorem Reason.Mirrors.eq_typeChanged {r : Reason} (h : Reason.Mirrors .fieldsAppended r) :
    r = .typeChanged := by
  cases h with
  | same hne => exact absurd rfl hne
  | grown => rfl

/-! ## Differences of declarations -/

/-- Constants and variables are the same in both directions. -/
theorem ValueSpec.same_comm (v w : ValueSpec) : v.same w = w.same v := by
  have hnames : sameNames v.names w.names = true ↔ sameNames w.names v.names = true := by
    rw [sameNames_iff, sameNames_iff]
    exact forall₂_swap_iff fun x _ y _ => by rw [Ident.same_comm]
  have htype : Expr.sameOption v.type w.type = Expr.sameOption w.type v.type := by
    cases v.type <;> cases w.type <;> simp [Expr.sameOption, Expr.same_comm]
  have hvalues : Expr.sameList v.values w.values = true ↔
      Expr.sameList w.values v.values = true := by
    rw [Expr.sameList_iff, Expr.sameList_iff]
    exact forall₂_swap_iff fun x _ y _ => by rw [Expr.same_comm]
  rw [ValueSpec.same, ValueSpec.same, Bool.eq_iff_iff.mpr hnames, htype,
    Bool.eq_iff_iff.mpr hvalues]

theorem FuncDecl.difference?_comm (f g : FuncDecl) : f.difference? g = g.difference? f := by
  have hrecv : sameReceivers f.recv g.recv = sameReceivers g.recv f.recv := by
    cases f.recv <;> cases g.recv <;> simp [sameReceivers, Fields.same_comm]
  rw [FuncDecl.difference?, FuncDecl.difference?, hrecv, Signature.same_comm]

/-- Of two structs at most one extends the other. -/
theorem Fields.not_extendedBy_of_extendedBy {fs gs : Fields} (h : Fields.extendedBy fs gs = true) :
    Fields.extendedBy gs fs = false := by
  simp only [Fields.extendedBy, Bool.and_eq_true, decide_eq_true_eq] at h
  have hlonger : ¬ (Fields.slots gs).length < (Fields.slots fs).length := by omega
  simp [Fields.extendedBy, hlonger]

/-- The visible parts of types differ in both directions or in none, for mirrored reasons. -/
theorem visibleDifference?_reversed (a b : Expr) :
    Option.Rel Reason.Mirrors (visibleDifference? a b) (visibleDifference? b a) := by
  by_cases h : ∃ fs gs, a = .struct fs ∧ b = .struct gs
  · obtain ⟨fs, gs, rfl, rfl⟩ := h
    have hcomm := Fields.same_comm .significant fs gs
    rw [visibleDifference?, visibleDifference?, ← hcomm]
    cases Fields.same .significant fs gs with
    | true => exact .none
    | false =>
      cases hgrown : Fields.extendedBy fs gs with
      | true =>
        rw [Fields.not_extendedBy_of_extendedBy hgrown]
        exact .some .grown
      | false =>
        cases Fields.extendedBy gs fs with
        | true => exact .some .shrunk
        | false => exact .some (.same (by decide))
  · rw [visibleDifference?_of_not_structs fun fs gs ha hb => h ⟨fs, gs, ha, hb⟩,
      visibleDifference?_of_not_structs fun fs gs hb ha => h ⟨gs, fs, ha, hb⟩, Expr.same_comm]
    cases b.same a with
    | true => exact .none
    | false => exact .some (.same (by decide))

/-- Types differ in both directions or in none, for mirrored reasons. -/
theorem TypeSpec.difference?_reversed (P Q : Package) (t u : TypeSpec) :
    Option.Rel Reason.Mirrors (t.difference? P u Q) (u.difference? Q t P) := by
  have hvisible := visibleDifference?_reversed (P.follow t).type.exportedOnly
    (Q.follow u).type.exportedOnly
  have hchanged : Option.Rel Reason.Mirrors (some .typeChanged) (some .typeChanged) :=
    .some (.same (by decide))
  rw [TypeSpec.difference?, TypeSpec.difference?, Bool.or_comm, Ident.same_comm,
    Fields.same_comm]
  split
  · exact hchanged
  · split
    · exact hchanged
    · exact hvisible

/-- Declarations with one key differ in both directions or in none, for mirrored reasons. -/
theorem Decl.difference?_reversed (P Q : Package) {d e : Decl} (hkey : e.key = d.key) :
    Option.Rel Reason.Mirrors (d.difference? P Q e) (e.difference? Q P d) := by
  cases d with
  | value v =>
    obtain ⟨w, rfl, hvalue⟩ := Decl.isKind_value.exists_of_key hkey
    have hkind : w.kind = v.kind := (Prod.mk.inj hvalue).1
    rw [Decl.difference?, Decl.difference?, ValueSpec.difference?, ValueSpec.difference?,
      ValueSpec.same_comm, hkind]
    split
    · exact .none
    · exact .some (.same (by simp))
  | func f =>
    obtain ⟨g, rfl, -⟩ := Decl.isKind_func.exists_of_key hkey
    rw [Decl.difference?, Decl.difference?, FuncDecl.difference?_comm, FuncDecl.difference?]
    split
    · exact .some (.same (by decide))
    · split
      · exact .some (.same (by decide))
      · exact .none
  | type t =>
    obtain ⟨u, rfl, -⟩ := Decl.isKind_type.exists_of_key hkey
    exact TypeSpec.difference?_reversed P Q t u

/-! ## Findings in both directions -/

/-- The pairs that are changed in one direction are changed in the other, the other way round. -/
theorem changedDecls_swap (P Q : Package) :
    ((changedDecls P Q).map Prod.swap).Perm (changedDecls Q P) := by
  -- Partners have one key, so whether they differ does not depend on the direction.
  have hsome : ∀ x ∈ (P.pairs Q).filterMap Pair.partners?,
      (x.1.difference? P Q x.2).isSome = (x.2.difference? Q P x.1).isSome := by
    rintro ⟨p, l⟩ hx
    have hrel := Decl.difference?_reversed P Q (key_eq_of_both_mem (mem_partners_iff.mp hx))
    generalize p.difference? P Q l = a at hrel ⊢
    generalize l.difference? Q P p = b at hrel ⊢
    cases hrel <;> rfl
  have hswap := (partners_pairByKey_swap Decl.key P.surface Q.surface).filter fun x =>
    (x.1.difference? Q P x.2).isSome
  rw [List.filter_map] at hswap
  refine ((changedDecls_perm P Q).map Prod.swap).trans ?_
  rw [List.filter_congr hsome]
  exact hswap.trans (changedDecls_perm Q P).symm

/-- A pair that is changed both ways has mirrored reasons. -/
theorem mirrors_of_mem_findings {P Q : Package} {p l : Decl} {r r' : Reason}
    (h : ⟨r, .both p l⟩ ∈ findings P Q) (h' : ⟨r', .both l p⟩ ∈ findings Q P) :
    r.Mirrors r' := by
  obtain ⟨hpair, hreason⟩ := mem_findings_iff.mp h
  have hreason' := (mem_findings_iff.mp h').2
  have hrel := Decl.difference?_reversed P Q (key_eq_of_both_mem hpair)
  rw [reportReason?] at hreason hreason'
  rw [hreason, hreason'] at hrel
  cases hrel with
  | some hmirrors => exact hmirrors

/-- A pair that is changed one way is changed the other way, for the mirrored reason. -/
theorem exists_mirrored_finding {P Q : Package} {p l : Decl} {r : Reason}
    (h : ⟨r, .both p l⟩ ∈ findings P Q) :
    ∃ r', r.Mirrors r' ∧ ⟨r', .both l p⟩ ∈ findings Q P := by
  obtain ⟨hpair, hreason⟩ := mem_findings_iff.mp h
  have hrel := Decl.difference?_reversed P Q (key_eq_of_both_mem hpair)
  rw [reportReason?] at hreason
  rw [hreason] at hrel
  cases hback : l.difference? Q P p with
  | none =>
    rw [hback] at hrel
    cases hrel
  | some r' =>
    rw [hback] at hrel
    cases hrel with
    | some hmirrors =>
      exact ⟨r', hmirrors, mem_findings_iff.mpr ⟨both_mem_pairByKey_comm.mp hpair, hback⟩⟩

/-- **Both directions.**  Removed one way is added the other way, except the methods of unexported
types, which are added but not removed.  Changed one way is changed the other way, for the mirrored
reason; in particular growth is a major change the other way. -/
theorem findings_reversed (P Q : Package) :
    comparePackages (some P) (some Q) = (findings P Q).map Finding.change ∧
    removedDecls P Q = (addedDecls Q P).filter (fun d => !d.isHidden) ∧
    addedDecls Q P = P.unmatched Q ∧
    ((changedDecls P Q).map Prod.swap).Perm (changedDecls Q P) ∧
    (∀ p l r r', ⟨r, .both p l⟩ ∈ findings P Q → ⟨r', .both l p⟩ ∈ findings Q P →
      r.Mirrors r') ∧
    ∀ p l, ⟨.fieldsAppended, .both p l⟩ ∈ findings P Q →
      ∃ f ∈ findings Q P, f.subject = .both l p ∧ f.reason = .typeChanged ∧
        f.change.severity = .major := by
  refine ⟨comparePackages_eq_findings P Q, ?_, addedDecls_eq Q P, changedDecls_swap P Q,
    fun p l r r' => mirrors_of_mem_findings, ?_⟩
  · rw [addedDecls_eq, removedDecls_eq]
  · intro p l h
    obtain ⟨r, hmirrors, hmem⟩ := exists_mirrored_finding h
    obtain rfl := hmirrors.eq_typeChanged
    exact ⟨_, hmem, rfl, rfl, rfl⟩

/-- The struct of a sample release. -/
def shapeStruct (fields : List String) : Decl :=
  .type ⟨⟨"Shape", none⟩, [], false,
    .struct [⟨fields.map (⟨·, none⟩), .ident ⟨"int", none⟩, none⟩], ⟨"shape.go", 3, 6⟩⟩

/-- A struct grows while a hidden method goes: nothing is removed, and on the way back the method is
added and the struct changed. -/
theorem findings_reversed_of_grown_shape :
    (⟨.fieldsAppended, .both (shapeStruct ["Width"]) (shapeStruct ["Width", "Height"])⟩ ∈
      findings (shapeRelease ["Width"] [cacheReset]) (shapeRelease ["Width", "Height"] [])) ∧
    removedDecls (shapeRelease ["Width"] [cacheReset]) (shapeRelease ["Width", "Height"] []) = [] ∧
    addedDecls (shapeRelease ["Width", "Height"] []) (shapeRelease ["Width"] [cacheReset]) =
      [cacheReset] ∧
    ∃ f ∈ findings (shapeRelease ["Width", "Height"] []) (shapeRelease ["Width"] [cacheReset]),
      f.subject = .both (shapeStruct ["Width", "Height"]) (shapeStruct ["Width"]) ∧
      f.reason = .typeChanged ∧ f.change.severity = .major := by
  have hgrown : (⟨.fieldsAppended,
      .both (shapeStruct ["Width"]) (shapeStruct ["Width", "Height"])⟩ : Finding) ∈
      findings (shapeRelease ["Width"] [cacheReset]) (shapeRelease ["Width", "Height"] []) := by
    have hone : findings (shapeRelease ["Width"] [cacheReset])
        (shapeRelease ["Width", "Height"] []) = [⟨.fieldsAppended,
          .both (shapeStruct ["Width"]) (shapeStruct ["Width", "Height"])⟩] := by rfl
    rw [hone]
    exact List.mem_singleton_self _
  obtain ⟨-, -, -, -, -, hgrowth⟩ := findings_reversed (shapeRelease ["Width"] [cacheReset])
    (shapeRelease ["Width", "Height"] [])
  exact ⟨hgrown, rfl, rfl, hgrowth _ _ hgrown⟩

end GoSurface
