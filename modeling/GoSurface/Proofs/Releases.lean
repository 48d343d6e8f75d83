/-
# Verdicts along releases

The way from one release to the next but one is at most as severe as the worse of its two steps.
Two things could break this.  A method of an unexported type may be dropped without notice and come
back changed; and an open reference agrees with any binding of its name, so that a reference left
open by the middle release could hide a change.

* `Package.AllReachable`, `BindingsLinked`: what excludes the two;
* `severity_compareReleases_le_max`: severities compose.
-/
import GoSurface.Proofs.Members
import GoSurface.Proofs.SelfComparison
import GoSurface.Proofs.Verdict

namespace GoSurface

/-! ## Releases -/

/-- Compares two releases of a package, as they are written; either may be absent. -/
def compareReleases (previous latest : Option Package) : Diff :=
  comparePackages (previous.map Package.resolve) (latest.map Package.resolve)

/-- No exported method has an unexported receiver type. -/
def Package.AllReachable (p : Package) : Prop :=
  ∀ d ∈ p.surface, d.isHidden = false

instance (p : Package) : Decidable p.AllReachable :=
  inferInstanceAs (Decidable (∀ d ∈ p.surface, d.isHidden = false))

/-- The identifier stands as a reference where declarations of the package are compared. -/
def Package.ComparesRef (p : Package) (x : Ident) : Prop :=
  ∃ d ∈ p.surface, ∃ e ∈ d.comparedTrees p, e.Compares (.ident x)

/-- Some compared reference of that name is bound. -/
def Package.BindsRef (p : Package) (name : String) : Prop :=
  ∃ x, p.ComparesRef x ∧ x.name = name ∧ x.isBound = true

/-- A name that has bound references in the first and in the last release has no open ones in the
middle. -/
def BindingsLinked (first middle last : Option Package) : Prop :=
  ∀ name, (∃ p ∈ first, p.resolve.BindsRef name) → (∃ r ∈ last, r.resolve.BindsRef name) →
    ∀ q ∈ middle, ∀ y, q.resolve.ComparesRef y → y.name = name → y.isBound = true

/-- What is compared of declarations of three releases is chained. -/
theorem chained_of_linked {p q r : Package} (hopen : p.Unbound)
    (hlinked : BindingsLinked (some p) (some q) (some r)) {c d e : Decl}
    (hc : c ∈ p.resolve.surface) (hd : d ∈ q.resolve.surface) (he : e ∈ r.resolve.surface) :
    ∀ s ∈ c.comparedTrees p.resolve, ∀ t ∈ d.comparedTrees q.resolve,
      ∀ u ∈ e.comparedTrees r.resolve, Expr.Chained s t u := by
  intro s hs t ht u hu
  refine ⟨?_, hopen.membersOpen hc s hs⟩
  intro x y z hx hy hz hxy hyz hbx hbz
  have hfirst : p.resolve.BindsRef y.name := ⟨x, ⟨c, hc, s, hs, hx⟩, hxy, hbx⟩
  have hlast : r.resolve.BindsRef y.name := ⟨z, ⟨e, he, u, hu, hz⟩, hyz.symm, hbz⟩
  exact hlinked y.name ⟨p, rfl, hfirst⟩ ⟨r, rfl, hlast⟩ q rfl y ⟨d, hd, t, ht, hy⟩ rfl

/-! ## Declarations in a row -/

/-- A bound at each level below the top is a bound by the larger of two severities. -/
theorem Severity.le_max_of_levels {a b c : Severity}
    (hpatch : b ≤ .patch → c ≤ .patch → a ≤ .patch)
    (hminor : b ≤ .minor → c ≤ .minor → a ≤ .minor) : a ≤ max b c := by
  generalize hs : max b c = s
  obtain ⟨hb, hc⟩ := max_le_iff.mp hs.le
  cases s with
  | patch => exact hpatch hb hc
  | minor => exact hminor hb hc
  | major => exact Severity.le_major a

/-- Equality of constants and variables composes along bound names and chained trees. -/
theorem ValueSpec.same_trans {u v w : ValueSpec} (hbound : ∀ y ∈ v.names, y.isBound = true)
    (h : ∀ a ∈ u.comparedTrees, ∀ b ∈ v.comparedTrees, ∀ c ∈ w.comparedTrees,
      Expr.Chained a b c)
    (huv : u.same v = true) (hvw : v.same w = true) : u.same w = true := by
  simp only [ValueSpec.same, Bool.and_eq_true, sameNames_iff, Expr.sameOption_iff,
    Expr.sameList_iff] at huv hvw ⊢
  obtain ⟨⟨hnames, htyped, htype⟩, hvalues⟩ := huv
  obtain ⟨⟨hnames', htyped', htype'⟩, hvalues'⟩ := hvw
  refine ⟨⟨?_, htyped.trans htyped', ?_⟩, ?_⟩
  · refine forall₂_trans ?_ hnames hnames'
    intro x _ y hy z _ hxy hyz
    exact Ident.same_trans hxy hyz fun _ _ => hbound y hy
  · refine Expr.same_rows_trans ?_ htype htype'
    intro a ha b hb c hc
    exact h a (List.mem_append_left _ ha) b (List.mem_append_left _ hb) c
      (List.mem_append_left _ hc)
  · refine Expr.same_rows_trans ?_ hvalues hvalues'
    intro a ha b hb c hc
    exact h a (List.mem_append_right _ ha) b (List.mem_append_right _ hb) c
      (List.mem_append_right _ hc)

/-- Equality of receivers composes along chained types. -/
theorem sameReceivers_trans {r s t : Option Fields}
    (h : ∀ a ∈ Fields.slotTypes (r.getD []), ∀ b ∈ Fields.slotTypes (s.getD []),
      ∀ c ∈ Fields.slotTypes (t.getD []), Expr.Chained a b c)
    (hrs : sameReceivers r s = true) (hst : sameReceivers s t = true) :
    sameReceivers r t = true := by
  cases r <;> cases s <;> cases t <;> try exact absurd hrs Bool.false_ne_true
  case none.none.none => rfl
  case none.none.some => exact hst
  case some.some.none => exact hst
  case some.some.some => exact Fields.same_trans h hrs hst

section Steps

variable {p q r : Package} (hopen : p.Unbound)
  (hlinked : BindingsLinked (some p) (some q) (some r))

include hopen hlinked

/-- Constants and variables are judged on the whole way as in its steps. -/
theorem ValueSpec.judgement_le_max {u v w : ValueSpec} (hu : .value u ∈ p.resolve.surface)
    (hv : .value v ∈ q.resolve.surface) (hw : .value w ∈ r.resolve.surface) :
    judgement (u.difference? w) ≤
      max (judgement (u.difference? v)) (judgement (v.difference? w)) := by
  have hbound : ∀ y ∈ v.names, y.isBound = true := by
    have hmem := (List.mem_filter.mp hv).1
    rw [Package.decls_resolve] at hmem
    obtain ⟨d, -, hd⟩ := List.mem_map.mp hmem
    cases d with
    | value v₀ =>
      obtain rfl := Decl.value.inj hd
      simp [ValueSpec.resolve, Ident.isBound]
    | _ => cases hd
  have htrans := ValueSpec.same_trans hbound (chained_of_linked hopen hlinked hu hv hw)
  apply Severity.le_max_of_levels
  · simp only [judgement_le_patch_iff, ValueSpec.difference?_eq_none_iff]
    exact htrans
  · simp only [ValueSpec.judgement_le_minor_iff]
    exact htrans

/-- Functions are judged on the whole way as in its steps. -/
theorem FuncDecl.judgement_le_max {f g h : FuncDecl} (hf : .func f ∈ p.resolve.surface)
    (hg : .func g ∈ q.resolve.surface) (hh : .func h ∈ r.resolve.surface) :
    judgement (f.difference? h) ≤
      max (judgement (f.difference? g)) (judgement (g.difference? h)) := by
  have hchained := chained_of_linked hopen hlinked hf hg hh
  have htrans : (sameReceivers f.recv g.recv = true ∧ f.sig.same g.sig = true) →
      (sameReceivers g.recv h.recv = true ∧ g.sig.same h.sig = true) →
      sameReceivers f.recv h.recv = true ∧ f.sig.same h.sig = true := by
    rintro ⟨hrecv, hsig⟩ ⟨hrecv', hsig'⟩
    constructor
    · refine sameReceivers_trans ?_ hrecv hrecv'
      intro a ha b hb c hc
      exact hchained a (List.mem_append_left _ ha) b (List.mem_append_left _ hb) c
        (List.mem_append_left _ hc)
    · refine Signature.same_trans ?_ hsig hsig'
      intro a ha b hb c hc
      exact hchained a (List.mem_append_right _ ha) b (List.mem_append_right _ hb) c
        (List.mem_append_right _ hc)
  apply Severity.le_max_of_levels
  · simp only [judgement_le_patch_iff, FuncDecl.difference?_eq_none_iff]
    exact htrans
  · simp only [FuncDecl.judgement_le_minor_iff]
    exact htrans

/-- Types are judged on the whole way as in its steps. -/
theorem TypeSpec.judgement_le_max {t u v : TypeSpec} (ht : .type t ∈ p.resolve.surface)
    (hu : .type u ∈ q.resolve.surface) (hv : .type v ∈ r.resolve.surface)
    (hkey : v.key = t.key) :
    judgement (t.difference? p.resolve v r.resolve) ≤
      max (judgement (t.difference? p.resolve u q.resolve))
        (judgement (u.difference? q.resolve v r.resolve)) := by
  have hchained := chained_of_linked hopen hlinked ht hu hv
  have hnames := namesAgree_of_resolve t v ht hv hkey
  have hparams : Fields.same .ignored (p.resolve.follow t).typeParams
        (q.resolve.follow u).typeParams = true →
      Fields.same .ignored (q.resolve.follow u).typeParams
        (r.resolve.follow v).typeParams = true →
      Fields.same .ignored (p.resolve.follow t).typeParams
        (r.resolve.follow v).typeParams = true := by
    refine Fields.same_trans ?_
    intro a ha b hb c hc
    exact hchained a (List.mem_append_left _ ha) b (List.mem_append_left _ hb) c
      (List.mem_append_left _ hc)
  have htype : Expr.Chained (p.resolve.follow t).type.exportedOnly
      (q.resolve.follow u).type.exportedOnly (r.resolve.follow v).type.exportedOnly :=
    hchained _ (List.mem_append_right _ (List.mem_singleton_self _)) _
      (List.mem_append_right _ (List.mem_singleton_self _)) _
      (List.mem_append_right _ (List.mem_singleton_self _))
  apply Severity.le_max_of_levels
  · simp only [judgement_le_patch_iff, TypeSpec.difference?_eq_none_iff]
    rintro ⟨-, hfirst, hsame⟩ ⟨-, hsecond, hsame'⟩
    exact ⟨hnames, hparams hfirst hsecond, Expr.same_trans htype hsame hsame'⟩
  · simp only [TypeSpec.judgement_le_minor_iff]
    rintro ⟨-, hfirst, hgrows⟩ ⟨-, hsecond, hgrows'⟩
    exact ⟨hnames, hparams hfirst hsecond, hgrows.trans htype hgrows'⟩

/-- Releases that are all present: the severity of the whole way is bounded by its steps. -/
theorem severity_comparePackages_le_max (hp : p.resolve.AllReachable)
    (hq : q.resolve.AllReachable) :
    Diff.severity (comparePackages (some p.resolve) (some r.resolve)) ≤
      max (Diff.severity (comparePackages (some p.resolve) (some q.resolve)))
        (Diff.severity (comparePackages (some q.resolve) (some r.resolve))) := by
  obtain ⟨hvalues, hfuncs, htypes⟩ := severity_comparePackages_le_iff.mp
    (le_refl (Diff.severity (comparePackages (some p.resolve) (some q.resolve))))
  obtain ⟨hvalues', hfuncs', htypes'⟩ := severity_comparePackages_le_iff.mp
    (le_refl (Diff.severity (comparePackages (some q.resolve) (some r.resolve))))
  have hvisible : ∀ {s : Package}, s.AllReachable → ∀ f ∈ exportedFuncs (some s),
      isHiddenKey f.key = false := by
    intro s hs f hf
    rw [exportedFuncs_some, Decl.isKind_func.mem_filterMap] at hf
    exact hs _ hf
  refine severity_comparePackages_le_iff.mpr ⟨?_, ?_, ?_⟩
  · refine le_trans (valueChange_judges.le_max_of_chain valueChange_judges valueChange_judges
      (fun _ _ => rfl) (fun _ _ => rfl) ?_) (max_le_max hvalues hvalues')
    simp only [exportedValues_some, Decl.isKind_value.mem_filterMap]
    intro u hu v hv w hw _ _
    exact ValueSpec.judgement_le_max hopen hlinked hu hv hw
  · refine le_trans (funcChange_judges.le_max_of_chain funcChange_judges funcChange_judges
      (hvisible hp) (hvisible hq) ?_) (max_le_max hfuncs hfuncs')
    simp only [exportedFuncs_some, Decl.isKind_func.mem_filterMap]
    intro f hf g hg h hh _ _
    exact FuncDecl.judgement_le_max hopen hlinked hf hg hh
  · refine le_trans ((typeChange_judges _ _).le_max_of_chain (typeChange_judges _ _)
      (typeChange_judges _ _) (fun _ _ => rfl) (fun _ _ => rfl) ?_) (max_le_max htypes htypes')
    simp only [exportedTypes_some, Decl.isKind_type.mem_filterMap]
    intro t ht u hu v hv hkey hkey'
    exact TypeSpec.judgement_le_max hopen hlinked ht hu hv (hkey'.trans hkey)

end Steps

/-! ## Absent releases -/

/-- To drop a package is a major change. -/
theorem severity_comparePackages_none (p : Package) :
    Diff.severity (comparePackages (some p) none) = .major := by
  refine le_antisymm (Severity.le_major _) ?_
  exact Diff.severity_le_iff.mp (le_refl _) (.removed .major .packageRemoved p.snippet)
    (by simp [comparePackages, diffPresence])

/-- To introduce a package is a minor change. -/
theorem severity_comparePackages_of_none (l : Package) :
    Diff.severity (comparePackages none (some l)) = .minor := by
  apply le_antisymm
  · have hpresence : Diff.severity (diffPresence none (some l)) = .minor := rfl
    have hvalues : Diff.severity (diffValues none (some l)) ≤ .minor :=
      severity_pairByKey_nil_le fun _ => rfl
    have hfuncs : Diff.severity (diffFunctions none (some l)) ≤ .minor :=
      severity_pairByKey_nil_le fun _ => rfl
    have htypes : Diff.severity (diffTypes none (some l)) ≤ .minor :=
      severity_pairByKey_nil_le fun _ => rfl
    rw [comparePackages, Diff.severity_append, Diff.severity_append, Diff.severity_append]
    exact max_le (max_le (max_le hpresence.le hvalues) hfuncs) htypes
  · exact Diff.severity_le_iff.mp (le_refl _) (.added .minor .packageAdded l.snippet)
      (by simp [comparePackages, diffPresence])

/-- The severity of the whole way is bounded by its steps, whichever releases are absent. -/
theorem severity_compareReleases_le {P Q R : Option Package} (hopen : ∀ p ∈ P, p.Unbound)
    (hP : ∀ p ∈ P, p.resolve.AllReachable) (hQ : ∀ q ∈ Q, q.resolve.AllReachable)
    (hlinked : BindingsLinked P Q R) :
    Diff.severity (compareReleases P R) ≤
      max (Diff.severity (compareReleases P Q)) (Diff.severity (compareReleases Q R)) := by
  cases Q with
  | none =>
    cases P with
    | none => exact le_max_right _ _
    | some p =>
      -- The package was dropped in the first step.
      rw [show Diff.severity (compareReleases (some p) none) = .major from
        severity_comparePackages_none _]
      exact le_trans (Severity.le_major _) (le_max_left _ _)
  | some q =>
    cases R with
    | none =>
      rw [show Diff.severity (compareReleases (some q) none) = .major from
        severity_comparePackages_none _]
      exact le_trans (Severity.le_major _) (le_max_right _ _)
    | some r =>
      cases P with
      | none =>
        -- Whatever the second step does, the package is new in the first and on the whole way.
        rw [show Diff.severity (compareReleases none (some r)) = .minor from
            severity_comparePackages_of_none _,
          show Diff.severity (compareReleases none (some q)) = .minor from
            severity_comparePackages_of_none _]
        exact le_max_left _ _
      | some p =>
        exact severity_comparePackages_le_max (hopen p rfl) hlinked (hP p rfl) (hQ q rfl)

/-- **Verdicts compose along releases.**  If the first release bound nothing, the first two have no
methods of unexported types, and bindings are linked, then the whole way is at most as severe as
the worse of its steps.  So two steps without changes make one without changes, and two steps that
are not major make one that is not. -/
theorem severity_compareReleases_le_max (P Q R : Option Package) (hopen : ∀ p ∈ P, p.Unbound)
    (hP : ∀ p ∈ P, p.resolve.AllReachable) (hQ : ∀ q ∈ Q, q.resolve.AllReachable)
    (hlinked : BindingsLinked P Q R) :
    Diff.severity (compareReleases P R) ≤
        max (Diff.severity (compareReleases P Q)) (Diff.severity (compareReleases Q R)) ∧
      (compareReleases P Q = [] → compareReleases Q R = [] → compareReleases P R = []) ∧
      (Diff.severity (compareReleases P Q) ≠ .major →
        Diff.severity (compareReleases Q R) ≠ .major →
        Diff.severity (compareReleases P R) ≠ .major) := by
  have hle := severity_compareReleases_le hopen hP hQ hlinked
  refine ⟨hle, ?_, ?_⟩
  · intro hfirst hsecond
    rw [hfirst, hsecond] at hle
    exact (comparePackages_eq_nil_iff _ _).mpr (le_trans hle (max_le (le_refl _) (le_refl _)))
  · intro hfirst hsecond
    rw [← Severity.le_minor_iff] at hfirst hsecond ⊢
    exact le_trans hle (max_le hfirst hsecond)

/-- Bindings are linked if every identifier of the middle release is bound or has no bound
namesake in the first one. -/
theorem bindingsLinked_of_idents {p q : Package} {R : Option Package}
    (h : ∀ d ∈ q.resolve.surface, ∀ t ∈ d.comparedTrees q.resolve, ∀ y ∈ t.idents,
      y.isBound = true ∨ ∀ c ∈ p.resolve.surface, ∀ s ∈ c.comparedTrees p.resolve,
        ∀ x ∈ s.idents, x.name = y.name → x.isBound = false) :
    BindingsLinked (some p) (some q) R := by
  rintro name ⟨p, ⟨⟩, x, ⟨c, hc, s, hs, hx⟩, hxname, hbound⟩ - q ⟨⟩ y ⟨d, hd, t, ht, hy⟩ hyname
  have hxmem := Expr.mem_idents_of_compares hx (List.mem_singleton_self x)
  have hymem := Expr.mem_idents_of_compares hy (List.mem_singleton_self y)
  rcases h d hd t ht y hymem with hy | hfree
  · exact hy
  · rw [hfree c hc s hs x hxmem (hxname.trans hyname.symm)] at hbound
    exact absurd hbound Bool.false_ne_true

/-- A struct that grows twice: neither step is major, nor is the whole way. -/
theorem compareReleases_growing_twice :
    (shapeRelease ["Width"] []).Unbound ∧
    (shapeRelease ["Width"] []).resolve.AllReachable ∧
    (shapeRelease ["Width", "Height"] []).resolve.AllReachable ∧
    BindingsLinked (some (shapeRelease ["Width"] [])) (some (shapeRelease ["Width", "Height"] []))
      (some (shapeRelease ["Width", "Height", "Depth"] [])) ∧
    Diff.severity (compareReleases (some (shapeRelease ["Width"] []))
      (some (shapeRelease ["Width", "Height", "Depth"] []))) ≠ .major := by
  have hopen : (shapeRelease ["Width"] []).Unbound := by decide +kernel
  have hfirst : (shapeRelease ["Width"] []).resolve.AllReachable := by decide +kernel
  have hmiddle : (shapeRelease ["Width", "Height"] []).resolve.AllReachable := by decide +kernel
  have hlinked : BindingsLinked (some (shapeRelease ["Width"] []))
      (some (shapeRelease ["Width", "Height"] []))
      (some (shapeRelease ["Width", "Height", "Depth"] [])) :=
    bindingsLinked_of_idents (by decide +kernel)
  obtain ⟨-, -, hmajor⟩ := severity_compareReleases_le_max _ _ _
    (by rintro _ ⟨⟩; exact hopen) (by rintro _ ⟨⟩; exact hfirst)
    (by rintro _ ⟨⟩; exact hmiddle) hlinked
  exact ⟨hopen, hfirst, hmiddle, hlinked, hmajor (by decide +kernel) (by decide +kernel)⟩

end GoSurface
