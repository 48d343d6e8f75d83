/-
# What a verdict below major promises

If comparing two packages finds nothing major, then everything that a client of the first package
can reach has a compatible counterpart of its own in the second.  Where keys are not repeated this
is all that the verdict says, apart from the methods of unexported types: these may be dropped, but
not changed.

* `Assignment`: counterparts for the reachable declarations of a package;
* `Package.Keeps`: the same in terms of keys;
* `below_major_iff_assignment`: the verdict is below major exactly when there are counterparts.
-/
import GoSurface.Proofs.Resolution
import GoSurface.Proofs.Surface
import Mathlib.Data.List.Pairwise

namespace GoSurface

/-! ## Counterparts -/

/-- An assignment of a declaration of the second package to every reachable declaration of the
first: no declaration is assigned twice, kind and key are kept, and what is assigned is
compatible.  Declarations are counted by their places, so that equal ones stay apart. -/
structure Assignment (P Q : Package) where
  target : Fin P.reachable.length → Fin Q.surface.length
  injective : Function.Injective target
  key_eq : ∀ i, (Q.surface.get (target i)).key = (P.reachable.get i).key
  compatible : ∀ i, Decl.Compatible P Q (P.reachable.get i) (Q.surface.get (target i))

/-- Counterparts can be assigned if reachable declarations have keys of their own and each has a
compatible declaration with its key. -/
theorem Assignment.nonempty_of_keys {P Q : Package} (hnodup : (P.reachable.map Decl.key).Nodup)
    (hkept : ∀ d ∈ P.reachable, ∃ e ∈ Q.surface, e.key = d.key ∧ Decl.Compatible P Q d e) :
    Nonempty (Assignment P Q) := by
  have hplaces : ∀ i : Fin P.reachable.length, ∃ j : Fin Q.surface.length,
      (Q.surface.get j).key = (P.reachable.get i).key ∧
        Decl.Compatible P Q (P.reachable.get i) (Q.surface.get j) := by
    intro i
    obtain ⟨e, he, hkey, hcompatible⟩ := hkept _ (List.get_mem P.reachable i)
    obtain ⟨j, rfl⟩ := List.mem_iff_get.mp he
    exact ⟨j, hkey, hcompatible⟩
  choose target hkey hcompatible using hplaces
  refine ⟨⟨target, ?_, hkey, hcompatible⟩⟩
  rw [List.Nodup, List.pairwise_map, List.pairwise_iff_get] at hnodup
  -- Two places with the same counterpart would have the same key.
  intro i j hij
  have hkeys : (P.reachable.get i).key = (P.reachable.get j).key := by
    rw [← hkey i, ← hkey j, hij]
  rcases Nat.lt_trichotomy i j with hlt | heq | hlt
  · exact absurd hkeys (hnodup i j hlt)
  · exact Fin.ext heq
  · exact absurd hkeys.symm (hnodup j i hlt)

/-- Everything reachable is kept under its key, and whatever has the key of an extracted
declaration is compatible with it. -/
def Package.Keeps (P Q : Package) : Prop :=
  ∀ d ∈ P.surface, (d.isHidden = false → ∃ e ∈ Q.surface, e.key = d.key) ∧
    ∀ e ∈ Q.surface, e.key = d.key → Decl.Compatible P Q d e

/-- With distinct keys, a package is kept exactly when counterparts can be assigned and the hidden
methods that are still there are compatible. -/
theorem Package.keeps_iff_assignment {P Q : Package} (hP : P.KeysDistinct) (hQ : Q.KeysDistinct) :
    P.Keeps Q ↔ Nonempty (Assignment P Q) ∧
      ∀ d ∈ P.surface, d.isHidden = true → ∀ e ∈ Q.surface, e.key = d.key →
        Decl.Compatible P Q d e := by
  constructor
  · intro hkeeps
    refine ⟨Assignment.nonempty_of_keys ?_ ?_, fun d hd _ => (hkeeps d hd).2⟩
    · exact hP.sublist (List.filter_sublist.map Decl.key)
    · intro d hd
      obtain ⟨hsurface, hvisible⟩ := List.mem_filter.mp hd
      obtain ⟨hfound, hcompatible⟩ := hkeeps d hsurface
      obtain ⟨e, he, hkey⟩ := hfound (by simpa using hvisible)
      exact ⟨e, he, hkey, hcompatible e he hkey⟩
  · rintro ⟨⟨assignment⟩, hhidden⟩ d hd
    cases hvisible : d.isHidden with
    | true => exact ⟨fun h => absurd h.symm Bool.false_ne_true, hhidden d hd hvisible⟩
    | false =>
      have hreachable : d ∈ P.reachable := List.mem_filter.mpr ⟨hd, by simp [hvisible]⟩
      obtain ⟨i, rfl⟩ := List.mem_iff_get.mp hreachable
      have htarget := List.get_mem Q.surface (assignment.target i)
      refine ⟨fun _ => ⟨_, htarget, assignment.key_eq i⟩, ?_⟩
      intro e he hkey
      -- Among distinct keys the counterpart is the only declaration with its key.
      have heq := List.inj_on_of_nodup_map hQ he htarget (hkey.trans (assignment.key_eq i).symm)
      exact heq ▸ assignment.compatible i

/-! ## Verdicts -/

/-- Below major, no two reachable declarations share a key. -/
theorem nodup_reachable_of_below_major {P Q : Package}
    (h : Diff.severity (comparePackages (some P) (some Q)) ≤ .minor) :
    (P.reachable.map Decl.key).Nodup := by
  obtain ⟨hvalues, hfuncs, htypes⟩ := severity_comparePackages_le_iff.mp h
  obtain ⟨hvalues, -⟩ := valueChange_judges.kept_of_le hvalues (by decide)
  obtain ⟨hfuncs, -⟩ := funcChange_judges.kept_of_le hfuncs (by decide)
  obtain ⟨htypes, -⟩ := (typeChange_judges P Q).kept_of_le htypes (by decide)
  rw [exportedValues_some] at hvalues
  rw [exportedFuncs_some] at hfuncs
  rw [exportedTypes_some] at htypes
  have hsurface : P.surface.Pairwise fun d e => d.key = e.key → d.isHidden = true := by
    refine pairwise_of_kinds (fun _ _ hne hkey => absurd hkey hne) ?_ ?_ ?_
    · exact hvalues.imp fun hpair hkey => absurd (hpair (DeclKey.value.inj hkey)) Bool.false_ne_true
    · exact hfuncs.imp fun hpair hkey => hpair (DeclKey.func.inj hkey)
    · exact htypes.imp fun hpair hkey => absurd (hpair (DeclKey.type.inj hkey)) Bool.false_ne_true
  rw [List.Nodup, List.pairwise_map, Package.reachable, List.pairwise_filter]
  refine hsurface.imp ?_
  intro d e hpair hd _ hkey
  rw [hpair hkey] at hd
  cases hd

/-- Below major, every reachable declaration has a compatible one with its key. -/
theorem exists_compatible_of_below_major {P Q : Package}
    (h : Diff.severity (comparePackages (some P) (some Q)) ≤ .minor) {d : Decl}
    (hd : d ∈ P.reachable) : ∃ e ∈ Q.surface, e.key = d.key ∧ Decl.Compatible P Q d e := by
  obtain ⟨hvalues, hfuncs, htypes⟩ := severity_comparePackages_le_iff.mp h
  obtain ⟨hsurface, hvisible⟩ := List.mem_filter.mp hd
  cases d with
  | value v =>
    obtain ⟨-, hkept⟩ := valueChange_judges.kept_of_le hvalues (by decide)
    rw [exportedValues_some, exportedValues_some] at hkept
    obtain ⟨w, hw, hjudge⟩ := hkept v (Decl.isKind_value.mem_filterMap.mpr hsurface) rfl
    obtain ⟨hmem, hkey⟩ := mem_of_partner? hw
    exact ⟨.value w, Decl.isKind_value.mem_filterMap.mp hmem, congrArg DeclKey.value hkey,
      (ValueSpec.judgement_le_minor_iff v w).mp hjudge⟩
  | func f =>
    obtain ⟨-, hkept⟩ := funcChange_judges.kept_of_le hfuncs (by decide)
    rw [exportedFuncs_some, exportedFuncs_some] at hkept
    have hfree : isHiddenKey f.key = false := by
      rw [FuncDecl.isHiddenKey_key]
      simpa [Decl.isHidden] using hvisible
    obtain ⟨g, hg, hjudge⟩ := hkept f (Decl.isKind_func.mem_filterMap.mpr hsurface) hfree
    obtain ⟨hmem, hkey⟩ := mem_of_partner? hg
    exact ⟨.func g, Decl.isKind_func.mem_filterMap.mp hmem, congrArg DeclKey.func hkey,
      (FuncDecl.judgement_le_minor_iff f g).mp hjudge⟩
  | type t =>
    obtain ⟨-, hkept⟩ := (typeChange_judges P Q).kept_of_le htypes (by decide)
    rw [exportedTypes_some, exportedTypes_some] at hkept
    obtain ⟨u, hu, hjudge⟩ := hkept t (Decl.isKind_type.mem_filterMap.mpr hsurface) rfl
    obtain ⟨hmem, hkey⟩ := mem_of_partner? hu
    exact ⟨.type u, Decl.isKind_type.mem_filterMap.mp hmem, congrArg DeclKey.type hkey,
      ((TypeSpec.judgement_le_minor_iff P Q t u).mp hjudge).2⟩

/-- With distinct keys and agreeing names of types, a verdict is below major exactly when the
first package is kept. -/
theorem below_major_iff_keeps {P Q : Package} (hP : P.KeysDistinct) (hQ : Q.KeysDistinct)
    (hnames : ∀ t u, Decl.type t ∈ P.surface → Decl.type u ∈ Q.surface → u.key = t.key →
      TypeSpec.namesAgree P Q t u = true) :
    Diff.severity (comparePackages (some P) (some Q)) ≤ .minor ↔ P.Keeps Q := by
  obtain ⟨hPvalues, hPfuncs, hPtypes⟩ := P.keysDistinct_iff.mp hP
  obtain ⟨hQvalues, hQfuncs, hQtypes⟩ := Q.keysDistinct_iff.mp hQ
  rw [severity_comparePackages_le_iff, diffValues, diffFunctions, diffTypes,
    valueChange_judges.le_minor_iff hPvalues hQvalues,
    funcChange_judges.le_minor_iff hPfuncs hQfuncs,
    (typeChange_judges P Q).le_minor_iff hPtypes hQtypes]
  simp only [exportedValues_some, exportedFuncs_some, exportedTypes_some,
    Decl.isKind_value.mem_filterMap, Decl.isKind_func.mem_filterMap, Decl.isKind_type.mem_filterMap]
  simp only [ValueSpec.judgement_le_minor_iff, FuncDecl.judgement_le_minor_iff,
    TypeSpec.judgement_le_minor_iff]
  constructor
  · rintro ⟨hvalues, hfuncs, htypes⟩ (f | t | v) hd
    · obtain ⟨hfound, hsame⟩ := hfuncs f hd
      refine ⟨fun hvisible => ?_, fun e he hkey => ?_⟩
      · obtain ⟨g, hg, hkey⟩ := hfound hvisible
        exact ⟨.func g, hg, congrArg DeclKey.func hkey⟩
      · obtain ⟨g, rfl, hk⟩ := Decl.isKind_func.exists_of_key hkey
        exact hsame g he hk
    · obtain ⟨hfound, hsame⟩ := htypes t hd
      refine ⟨fun _ => ?_, fun e he hkey => ?_⟩
      · obtain ⟨u, hu, hkey⟩ := hfound trivial
        exact ⟨.type u, hu, congrArg DeclKey.type hkey⟩
      · obtain ⟨u, rfl, hk⟩ := Decl.isKind_type.exists_of_key hkey
        exact (hsame u he hk).2
    · obtain ⟨hfound, hsame⟩ := hvalues v hd
      refine ⟨fun _ => ?_, fun e he hkey => ?_⟩
      · obtain ⟨w, hw, hkey⟩ := hfound trivial
        exact ⟨.value w, hw, congrArg DeclKey.value hkey⟩
      · obtain ⟨w, rfl, hk⟩ := Decl.isKind_value.exists_of_key hkey
        exact hsame w he hk
  · intro hkeeps
    refine ⟨fun v hv => ⟨fun _ => ?_, fun w hw hkey => ?_⟩,
      fun f hf => ⟨fun hvisible => ?_, fun g hg hkey => ?_⟩,
      fun t ht => ⟨fun _ => ?_, fun u hu hkey => ?_⟩⟩
    · obtain ⟨e, he, hkey⟩ := (hkeeps _ hv).1 rfl
      obtain ⟨w, rfl, hk⟩ := Decl.isKind_value.exists_of_key hkey
      exact ⟨w, he, hk⟩
    · exact (hkeeps _ hv).2 _ hw (congrArg DeclKey.value hkey)
    · obtain ⟨e, he, hkey⟩ := (hkeeps _ hf).1 hvisible
      obtain ⟨g, rfl, hk⟩ := Decl.isKind_func.exists_of_key hkey
      exact ⟨g, he, hk⟩
    · exact (hkeeps _ hf).2 _ hg (congrArg DeclKey.func hkey)
    · obtain ⟨e, he, hkey⟩ := (hkeeps _ ht).1 rfl
      obtain ⟨u, rfl, hk⟩ := Decl.isKind_type.exists_of_key hkey
      exact ⟨u, he, hk⟩
    · exact ⟨hnames t u ht hu hkey, (hkeeps _ ht).2 _ hu (congrArg DeclKey.type hkey)⟩

/-- The names of types with one key agree in resolved packages. -/
theorem namesAgree_of_resolve {P Q : Package} (t u : TypeSpec)
    (ht : Decl.type t ∈ P.resolve.surface) (hu : Decl.type u ∈ Q.resolve.surface)
    (hkey : u.key = t.key) : TypeSpec.namesAgree P.resolve Q.resolve t u = true := by
  have hname := TypeSpec.name_same_of_resolve (List.mem_filter.mp ht).1 (List.mem_filter.mp hu).1
    hkey.symm
  simp [TypeSpec.namesAgree, hname]

/-- **Verdicts are sound and exact.**  Whatever the two packages are, a verdict below major gives
every reachable declaration of the first a compatible counterpart of its own in the second.  For
resolved packages with distinct keys the verdict is below major exactly when such counterparts
exist and no hidden method that both packages have was changed. -/
theorem below_major_iff_assignment :
    (∀ P Q : Package, Diff.severity (comparePackages (some P) (some Q)) ≠ .major →
      Nonempty (Assignment P Q)) ∧
    ∀ P Q : Package, P.resolve.KeysDistinct → Q.resolve.KeysDistinct →
      (Diff.severity (comparePackages (some P.resolve) (some Q.resolve)) ≠ .major ↔
        Nonempty (Assignment P.resolve Q.resolve) ∧
        ∀ d ∈ P.resolve.surface, d.isHidden = true → ∀ e ∈ Q.resolve.surface, e.key = d.key →
          Decl.Compatible P.resolve Q.resolve d e) := by
  constructor
  · intro P Q h
    have hminor := Severity.le_minor_iff.mpr h
    exact Assignment.nonempty_of_keys (nodup_reachable_of_below_major hminor)
      fun d hd => exists_compatible_of_below_major hminor hd
  · intro P Q hP hQ
    rw [← Package.keeps_iff_assignment hP hQ, ← below_major_iff_keeps hP hQ namesAgree_of_resolve,
      Severity.le_minor_iff]

/-- A package with a struct, a function that takes it, and further declarations. -/
def shapeRelease (fields : List String) (others : List Decl) : Package :=
  ⟨"shape", [⟨"shape.go", "shape",
    .type ⟨⟨"Shape", none⟩, [], false,
      .struct [⟨fields.map (⟨·, none⟩), .ident ⟨"int", none⟩, none⟩], ⟨"shape.go", 3, 6⟩⟩ ::
    .func ⟨none, ⟨"Area", none⟩,
      ⟨[], [⟨[⟨"s", none⟩], .pointer (.ident ⟨"Shape", none⟩), none⟩],
        [⟨[], .ident ⟨"int", none⟩, none⟩]⟩, ⟨"shape.go", 8, 1⟩⟩ :: others⟩]⟩

/-- A method of a type that is not exported. -/
def cacheReset : Decl :=
  .func ⟨some [⟨[⟨"c", none⟩], .pointer (.ident ⟨"cache", none⟩), none⟩], ⟨"Reset", none⟩,
    ⟨[], [], []⟩, ⟨"shape.go", 12, 1⟩⟩

/-- A field is appended and a hidden method dropped: the struct and the function that takes it
still have their counterparts. -/
theorem assignment_of_appended_field :
    (shapeRelease ["Width"] [cacheReset]).resolve.KeysDistinct ∧
    (shapeRelease ["Width", "Height"] []).resolve.KeysDistinct ∧
    Nonempty (Assignment (shapeRelease ["Width"] [cacheReset]).resolve
      (shapeRelease ["Width", "Height"] []).resolve) := by
  have hprevious : (shapeRelease ["Width"] [cacheReset]).resolve.KeysDistinct := by decide +kernel
  have hlatest : (shapeRelease ["Width", "Height"] []).resolve.KeysDistinct := by decide +kernel
  refine ⟨hprevious, hlatest, ?_⟩
  exact ((below_major_iff_assignment.2 _ _ hprevious hlatest).mp (by decide +kernel)).1

end GoSurface
