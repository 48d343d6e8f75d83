/-
# Where changes come from

A change says what happened by its reason, and quotes what it happened to.  The reason decides the
severity and which sides are quoted.  Each quotation goes back to the package itself or to one of
its extracted declarations, nothing is quoted on one side by two changes, and the order of a report
is that of the packages.

* `Change.WellFormed`: severity and sides are those of the reason;
* `Item`, `itemsOf`: what a package can be quoted for, in the order of a report;
* `Origin`, `Change.ComesFrom`: what a change goes back to;
* `Reason.MayPrecede`: package, constants and variables, functions, types, and additions last;
* `comparePackages_eq_of_present`: an absent package declares nothing;
* `changes_come_from_items`: every report is well formed, traceable and in order.
-/
import GoSurface.Proofs.Findings
import GoSurface.Proofs.OnePass
import Mathlib.Data.List.Perm.Subperm

namespace GoSurface

/-! ## Reasons and what they ask of a change -/

/-- What a change can be about. -/
inductive Topic where
  | package
  | value (kind : ValueKind)
  | func
  | type
deriving DecidableEq

/-- The place of a topic in a report. -/
def Topic.place : Topic → Nat
  | package => 0
  | value _ => 1
  | func => 2
  | type => 3

namespace Reason

/-- What a reason is about. -/
def topic : Reason → Topic
  | packageAdded | packageRemoved => .package
  | valueAdded kind | valueRemoved kind | valueChanged kind => .value kind
  | functionAdded | functionRemoved | receiverChanged | signatureChanged => .func
  | typeAdded | typeRemoved | fieldsAppended | typeChanged => .type

/-- Something is new. -/
def isAddition : Reason → Bool
  | packageAdded | valueAdded _ | functionAdded | typeAdded => true
  | _ => false

/-- Something is gone. -/
def isRemoval : Reason → Bool
  | packageRemoved | valueRemoved _ | functionRemoved | typeRemoved => true
  | _ => false

/-- A change for the first reason may stand before a change for the second one: by topic, and within
a topic additions come last. -/
def MayPrecede (r s : Reason) : Prop :=
  r.topic.place < s.topic.place ∨
    r.topic.place = s.topic.place ∧ (r.isAddition = true → s.isAddition = true)

end Reason

/-- A change as its reason asks: additions are minor and have a later side only, removals are major
and have an earlier side only, and all others have two sides of one name and are major unless fields
were appended. -/
inductive Change.WellFormed : Change → Prop
  | added {r : Reason} {l : Snippet} : r.isAddition = true → WellFormed ⟨.minor, r, none, some l⟩
  | removed {r : Reason} {p : Snippet} : r.isRemoval = true → WellFormed ⟨.major, r, some p, none⟩
  | grown {p l : Snippet} : p.name = l.name → WellFormed ⟨.minor, .fieldsAppended, some p, some l⟩
  | changed {r : Reason} {p l : Snippet} : r.isAddition = false → r.isRemoval = false →
      r ≠ .fieldsAppended → p.name = l.name → WellFormed ⟨.major, r, some p, some l⟩

/-- A well-formed change is never a patch. -/
theorem Change.WellFormed.severity_ne_patch {c : Change} (h : c.WellFormed) :
    c.severity ≠ .patch := by
  cases h <;> exact Severity.noConfusion

/-- Two sides of one name are well formed for every reason that is no addition and no removal. -/
theorem Change.wellFormed_changed {r : Reason} {p l : Snippet} (hadd : r.isAddition = false)
    (hremove : r.isRemoval = false) (hname : p.name = l.name) :
    (Change.changed r.severity r p l).WellFormed := by
  by_cases hgrown : r = .fieldsAppended
  · subst hgrown
    exact .grown hname
  · have hsevere : r.severity = .major := by
      cases r <;> simp_all [Reason.severity, Reason.isAddition]
    rw [Change.changed, hsevere]
    exact .changed hadd hremove hgrown hname

/-- A diff of changes that are no patches is a patch only if it is empty. -/
theorem Diff.severity_eq_patch_iff {d : Diff} (h : ∀ c ∈ d, c.severity ≠ .patch) :
    Diff.severity d = .patch ↔ d = [] := by
  constructor
  · intro hpatch
    cases d with
    | nil => rfl
    | cons c d =>
      have hle := Diff.severity_le_iff.mp (Severity.le_patch_iff.mpr hpatch) c List.mem_cons_self
      exact absurd (Severity.le_patch_iff.mp hle) (h c List.mem_cons_self)
  · rintro rfl
    rfl

/-! ## What can be quoted -/

/-- What a change can quote. -/
inductive Item where
  | package (p : Package)
  | decl (d : Decl)

/-- The topic of changes about a declaration. -/
def Decl.topic : Decl → Topic
  | .value v => .value v.kind
  | .func _ => .func
  | .type _ => .type

namespace Item

/-- The quotation of an item. -/
def snippet : Item → Snippet
  | package p => p.snippet
  | decl d => d.snippet

/-- The topic of changes about an item. -/
def topic : Item → Topic
  | package _ => .package
  | decl d => d.topic

end Item

/-- What a package that may be absent can be quoted for, in the order of a report: itself, and its
extracted declarations. -/
def itemsOf : Option Package → List Item
  | some p => .package p :: (byCategory Decl.category p.surface).map .decl
  | none => []

/-- What a change goes back to in the two packages. -/
structure Origin where
  previous : Option Item
  latest : Option Item

/-- The item that is new, if nothing stands for it in the first package. -/
def Origin.added? (o : Origin) : Option Item :=
  match o.previous with
  | none => o.latest
  | some _ => none

/-- A change quotes its origin, on both sides, and its reason is about what stands there. -/
structure Change.ComesFrom (c : Change) (o : Origin) : Prop where
  previous : c.previous = o.previous.map Item.snippet
  latest : c.latest = o.latest.map Item.snippet
  topic : ∀ i, i ∈ o.previous ∨ i ∈ o.latest → i.topic = c.reason.topic

/-! ## Declarations of one key -/

/-- Declarations of one key are about one topic. -/
theorem Decl.topic_eq_of_key {d e : Decl} (h : e.key = d.key) : e.topic = d.topic := by
  cases d with
  | value v =>
    obtain ⟨w, rfl, hkey⟩ := Decl.isKind_value.exists_of_key h
    exact congrArg Topic.value (Prod.mk.inj hkey).1
  | func f =>
    obtain ⟨g, rfl, -⟩ := Decl.isKind_func.exists_of_key h
    rfl
  | type t =>
    obtain ⟨u, rfl, -⟩ := Decl.isKind_type.exists_of_key h
    rfl

/-- Declarations of one key are quoted under one name. -/
theorem Decl.snippet_name_eq_of_key {d e : Decl} (h : e.key = d.key) :
    e.snippet.name = d.snippet.name := by
  cases d with
  | value v =>
    obtain ⟨w, rfl, hkey⟩ := Decl.isKind_value.exists_of_key h
    exact congrArg (joinTexts ", ") (Prod.mk.inj hkey).2
  | func f =>
    obtain ⟨g, rfl, hkey⟩ := Decl.isKind_func.exists_of_key h
    exact (Prod.mk.inj hkey).1
  | type t =>
    obtain ⟨u, rfl, hkey⟩ := Decl.isKind_type.exists_of_key h
    exact hkey

/-- Functions differ in their receivers or in their signatures. -/
theorem FuncDecl.reason_of_difference? {f g : FuncDecl} {r : Reason}
    (h : f.difference? g = some r) : r = .receiverChanged ∨ r = .signatureChanged := by
  unfold FuncDecl.difference? at h
  split at h
  · exact Or.inl (Option.some.inj h).symm
  · split at h
    · exact Or.inr (Option.some.inj h).symm
    · cases h

/-- What is visible of two types differs in appended fields or in some other way. -/
theorem reason_of_visibleDifference? {a b : Expr} {r : Reason}
    (h : visibleDifference? a b = some r) : r = .typeChanged ∨ r = .fieldsAppended := by
  unfold visibleDifference? at h
  split at h
  · split at h
    · cases h
    · split at h
      · exact Or.inr (Option.some.inj h).symm
      · exact Or.inl (Option.some.inj h).symm
  · split at h
    · cases h
    · exact Or.inl (Option.some.inj h).symm

/-- Types differ in appended fields or in some other way. -/
theorem TypeSpec.reason_of_difference? {P Q : Package} {t u : TypeSpec} {r : Reason}
    (h : t.difference? P u Q = some r) : r = .typeChanged ∨ r = .fieldsAppended := by
  unfold TypeSpec.difference? at h
  dsimp only at h
  split at h
  · exact Or.inl (Option.some.inj h).symm
  · split at h
    · exact Or.inl (Option.some.inj h).symm
    · exact reason_of_visibleDifference? h

/-- Two declarations differ for a reason that is about them and is no addition and no removal. -/
theorem Decl.reason_of_difference? {P Q : Package} {d e : Decl} {r : Reason}
    (h : d.difference? P Q e = some r) :
    r.topic = d.topic ∧ r.isAddition = false ∧ r.isRemoval = false := by
  cases d with
  | value v =>
    cases e with
    | value w =>
      have h : (if v.same w then none else some (Reason.valueChanged v.kind)) = some r := h
      split at h
      · cases h
      · obtain rfl := Option.some.inj h
        exact ⟨rfl, rfl, rfl⟩
    | _ => cases h
  | func f =>
    cases e with
    | func g => rcases FuncDecl.reason_of_difference? h with rfl | rfl <;> exact ⟨rfl, rfl, rfl⟩
    | _ => cases h
  | type t =>
    cases e with
    | type u => rcases TypeSpec.reason_of_difference? h with rfl | rfl <;> exact ⟨rfl, rfl, rfl⟩
    | _ => cases h

/-! ## Findings -/

section Findings

variable {P Q : Package} {f : Finding}

/-- What a finding goes back to: the declarations that it is about. -/
def Finding.origin (f : Finding) : Origin :=
  ⟨f.subject.previous?.map .decl, f.subject.latest?.map .decl⟩

/-- The topic of a pair of declarations: that of its first entry. -/
def Pair.topic : Pair Decl → Topic
  | .removed d => d.topic
  | .added d => d.topic
  | .both d _ => d.topic

/-- A pair is reported for a reason about its declarations, which is an addition only if the pair is
new. -/
theorem reason_of_report {x : Pair Decl} {r : Reason} (h : reportReason? P Q x = some r) :
    r.topic = x.topic ∧ r.isAddition = x.added?.isSome := by
  cases x with
  | removed d =>
    rw [reportReason?] at h
    split at h
    · cases h
    · obtain rfl := Option.some.inj h
      cases d <;> exact ⟨rfl, rfl⟩
  | added d =>
    obtain rfl := Option.some.inj h
    cases d <;> exact ⟨rfl, rfl⟩
  | both d e =>
    obtain ⟨htopic, hadd, -⟩ := Decl.reason_of_difference? h
    exact ⟨htopic, hadd⟩

/-- A finding is quoted by a well-formed change. -/
theorem wellFormed_of_mem_findings (h : f ∈ findings P Q) : f.change.WellFormed := by
  obtain ⟨r, x⟩ := f
  obtain ⟨hx, hr⟩ := mem_findings_iff.mp h
  cases x with
  | removed d =>
    rw [reportReason?] at hr
    split at hr
    · cases hr
    · obtain rfl := Option.some.inj hr
      rw [Finding.change, d.severity_removalReason]
      exact .removed (by cases d <;> rfl)
  | added d =>
    obtain rfl := Option.some.inj hr
    rw [Finding.change, d.severity_additionReason]
    exact .added (by cases d <;> rfl)
  | both d e =>
    obtain ⟨-, hadd, hremove⟩ := Decl.reason_of_difference? hr
    exact Change.wellFormed_changed hadd hremove
      (Decl.snippet_name_eq_of_key (key_eq_of_both_mem hx)).symm

/-- A finding is quoted by a change that goes back to its declarations. -/
theorem comesFrom_of_mem_findings (h : f ∈ findings P Q) : f.change.ComesFrom f.origin := by
  obtain ⟨r, x⟩ := f
  obtain ⟨hx, hr⟩ := mem_findings_iff.mp h
  have htopic := (reason_of_report hr).1
  refine ⟨?_, ?_, ?_⟩
  · exact (Option.map_map Item.snippet Item.decl x.previous?).symm
  · exact (Option.map_map Item.snippet Item.decl x.latest?).symm
  · intro i hi
    show i.topic = r.topic
    rw [htopic]
    cases x with
    | removed d =>
      obtain rfl : Item.decl d = i := by
        simpa [Finding.origin, Pair.previous?, Pair.latest?] using hi
      rfl
    | added d =>
      obtain rfl : Item.decl d = i := by
        simpa [Finding.origin, Pair.previous?, Pair.latest?] using hi
      rfl
    | both d e =>
      have hi : Item.decl d = i ∨ Item.decl e = i := by
        simpa [Finding.origin, Pair.previous?, Pair.latest?] using hi
      rcases hi with rfl | rfl
      · rfl
      · exact Decl.topic_eq_of_key (key_eq_of_both_mem hx)

/-! ## Order -/

/-- The place of a category in a report. -/
def Category.place : Category → Nat
  | value => 1
  | func => 2
  | type => 3

/-- Within all pairs, additions come last. -/
theorem pairwise_added_last {α κ : Type} [DecidableEq κ] (key : α → κ) (ps ls : List α) :
    (pairByKey key ps ls).Pairwise fun x y => x.added?.isSome = true → y.added?.isSome = true := by
  rw [pairByKey, List.pairwise_append]
  have hold : ∀ x ∈ pairsOfPrevious key ls [] ps, ¬ x.added?.isSome = true := by
    intro x hx
    obtain ⟨p, -, rfl | ⟨l, -, rfl⟩⟩ := mem_pairsOfPrevious hx <;> exact Bool.false_ne_true
  have hnew : ∀ y ∈ pairsOfLatest key (ps.map key) ls, y.added?.isSome = true := by
    intro y hy
    obtain ⟨l, -, rfl⟩ := mem_pairsOfLatest hy
    rfl
  refine ⟨?_, ?_, fun x _ y hy _ => hnew y hy⟩
  · exact List.pairwise_of_forall_mem_list fun x hx y _ hadded => absurd hadded (hold x hx)
  · exact List.pairwise_of_forall_mem_list fun x _ y hy _ => hnew y hy

/-- A list in the order of a report is ordered by category, and as before within a category. -/
theorem pairwise_byCategory {α : Type} {category : α → Category} {R : α → α → Prop} {xs : List α}
    (h : xs.Pairwise R) :
    (byCategory category xs).Pairwise fun x y =>
      (category x).place < (category y).place ∨
        (category x).place = (category y).place ∧ R x y := by
  have hblock : ∀ c, (xs.filter fun x => category x = c).Pairwise fun x y =>
      (category x).place < (category y).place ∨
        (category x).place = (category y).place ∧ R x y := by
    intro c
    refine (h.filter _).imp_of_mem ?_
    intro x y hx hy hR
    have hx : category x = c := by simpa using (List.mem_filter.mp hx).2
    have hy : category y = c := by simpa using (List.mem_filter.mp hy).2
    exact Or.inr ⟨by rw [hx, hy], hR⟩
  rw [byCategory_eq, List.pairwise_append, List.pairwise_append]
  refine ⟨⟨hblock .value, hblock .func, ?_⟩, hblock .type, ?_⟩
  · intro x hx y hy
    have hx : category x = .value := by simpa using (List.mem_filter.mp hx).2
    have hy : category y = .func := by simpa using (List.mem_filter.mp hy).2
    rw [hx, hy]
    exact Or.inl (by decide)
  · intro x hx y hy
    have hx : category x = .value ∨ category x = .func := by
      rcases List.mem_append.mp hx with hx | hx
      · exact Or.inl (by simpa using (List.mem_filter.mp hx).2)
      · exact Or.inr (by simpa using (List.mem_filter.mp hx).2)
    have hy : category y = .type := by simpa using (List.mem_filter.mp hy).2
    rw [hy]
    rcases hx with hx | hx <;> rw [hx] <;> exact Or.inl (by decide)

theorem Pair.place_topic (x : Pair Decl) : x.topic.place = x.category.place := by
  rcases x with d | d | ⟨d, e⟩ <;> cases d <;> rfl

/-- Findings are in the order of a report. -/
theorem pairwise_findings (P Q : Package) :
    (findings P Q).Pairwise fun f g => f.reason.MayPrecede g.reason := by
  rw [findings, List.pairwise_filterMap]
  refine (pairwise_byCategory (pairwise_added_last Decl.key P.surface Q.surface)).imp ?_
  intro x y hxy f hf g hg
  obtain ⟨r, hr, rfl⟩ := Option.map_eq_some_iff.mp hf
  obtain ⟨s, hs, rfl⟩ := Option.map_eq_some_iff.mp hg
  obtain ⟨hrtopic, hradd⟩ := reason_of_report hr
  obtain ⟨hstopic, hsadd⟩ := reason_of_report hs
  show Reason.MayPrecede r s
  rw [Reason.MayPrecede, hrtopic, hstopic, hradd, hsadd, Pair.place_topic, Pair.place_topic]
  exact hxy

/-! ## At most one change for each declaration -/

/-- What findings are about are pairs, in the order of a report and each at most once. -/
theorem subjects_sublist (P Q : Package) :
    ((findings P Q).map Finding.subject).Sublist (byCategory Pair.category (P.pairs Q)) := by
  rw [findings, List.map_filterMap]
  generalize byCategory Pair.category (P.pairs Q) = xs
  induction xs with
  | nil => exact List.Sublist.slnil
  | cons x xs ih =>
    cases hx : reportReason? P Q x with
    | none =>
      rw [List.filterMap_cons_none (by rw [finding?, hx]; rfl)]
      exact ih.cons x
    | some r =>
      rw [List.filterMap_cons_some (b := x) (by rw [finding?, hx]; rfl)]
      exact ih.cons_cons x

/-- The earlier sides of findings are extracted declarations of the first package, in the order of a
report and each at most once. -/
theorem previous_sublist (P Q : Package) :
    ((findings P Q).filterMap fun f => f.subject.previous?).Sublist
      (byCategory Decl.category P.surface) := by
  have hcategory : ∀ (x : Pair Decl) d, x.previous? = some d → d.category = x.category := by
    rintro (p | l | ⟨p, l⟩) d ⟨⟩ <;> rfl
  have hsub := (subjects_sublist P Q).filterMap Pair.previous?
  rwa [List.filterMap_map, filterMap_byCategory hcategory, Package.pairs,
    previous_pairByKey] at hsub

/-- What is new in findings are extracted declarations of the second package, in the order of a
report. -/
theorem added_sublist (P Q : Package) :
    ((findings P Q).filterMap fun f => f.subject.added?).Sublist
      (byCategory Decl.category Q.surface) := by
  have hcategory : ∀ (x : Pair Decl) d, x.added? = some d → d.category = x.category := by
    rintro (p | l | ⟨p, l⟩) d ⟨⟩
    rfl
  have hnew : ((P.pairs Q).filterMap Pair.added?).Sublist Q.surface := by
    have hremoved : ∀ xs : List (Pair Decl),
        (xs.filterMap Pair.removed?).Sublist (xs.filterMap Pair.previous?) := by
      intro xs
      induction xs with
      | nil => exact List.Sublist.slnil
      | cons x xs ih =>
        cases x with
        | removed d => exact ih.cons_cons d
        | added d => exact ih
        | both d e => exact ih.cons d
    have hback := hremoved (pairByKey Decl.key Q.surface P.surface)
    rwa [previous_pairByKey, ← added_pairByKey_swap] at hback
  have hsub := (subjects_sublist P Q).filterMap Pair.added?
  rw [List.filterMap_map, filterMap_byCategory hcategory] at hsub
  refine hsub.trans ?_
  rw [byCategory_eq, byCategory_eq]
  exact ((hnew.filter _).append (hnew.filter _)).append (hnew.filter _)

/-- The later sides of findings are extracted declarations of the second package, each at most
once. -/
theorem latest_subperm (P Q : Package) :
    ((findings P Q).filterMap fun f => f.subject.latest?).Subperm
      (byCategory Decl.category Q.surface) := by
  have hsub := (subjects_sublist P Q).filterMap Pair.latest?
  rw [List.filterMap_map] at hsub
  have hperm := ((byCategory_perm Pair.category (P.pairs Q)).filterMap Pair.latest?).trans
    (latest_pairByKey_perm Decl.key P.surface Q.surface)
  exact hsub.subperm.trans (hperm.trans (byCategory_perm Decl.category Q.surface).symm).subperm

end Findings

/-! ## Packages that may be absent -/

/-- The package, or one without files in its place. -/
def present (p : Option Package) : Package :=
  p.getD ⟨"", []⟩

/-- An absent package has no declarations to extract. -/
theorem exported_present (p : Option Package) :
    exportedValues p = exportedValues (some (present p)) ∧
      exportedFuncs p = exportedFuncs (some (present p)) ∧
      exportedTypes p = exportedTypes (some (present p)) := by
  cases p <;> exact ⟨rfl, rfl, rfl⟩

/-- Types are compared as those of the packages that are present: if one is absent, no type has a
partner. -/
theorem diffTypes_present (P Q : Option Package) :
    diffTypes P Q = diffTypes (some (present P)) (some (present Q)) := by
  rw [diffTypes, diffTypes, ← (exported_present P).2.2, ← (exported_present Q).2.2]
  apply List.filterMap_congr
  intro x hx
  cases x with
  | removed t => rfl
  | added t => rfl
  | both t u =>
    obtain ⟨hprevious, hlatest⟩ := sides_of_mem_pairByKey hx
    have ht : t ∈ exportedTypes P := hprevious t rfl
    have hu : u ∈ exportedTypes Q := hlatest u rfl
    cases P with
    | none => cases ht
    | some p =>
      cases Q with
      | none => cases hu
      | some q => rfl

/-- **An absent package declares nothing**: apart from the presence of the packages, what is
reported are findings. -/
theorem comparePackages_eq_of_present (P Q : Option Package) :
    comparePackages P Q =
      diffPresence P Q ++ (findings (present P) (present Q)).map Finding.change := by
  obtain ⟨hPvalues, hPfuncs, -⟩ := exported_present P
  obtain ⟨hQvalues, hQfuncs, -⟩ := exported_present Q
  have hvalues : diffValues P Q = diffValues (some (present P)) (some (present Q)) := by
    rw [diffValues, diffValues, hPvalues, hQvalues]
  have hfuncs : diffFunctions P Q = diffFunctions (some (present P)) (some (present Q)) := by
    rw [diffFunctions, diffFunctions, hPfuncs, hQfuncs]
  rw [← comparePackages_eq_findings, comparePackages, hvalues, hfuncs, diffTypes_present P Q,
    List.append_assoc, List.append_assoc, comparePackages, List.append_assoc]
  rfl

/-- What changes of presence go back to: the packages themselves. -/
def presenceOrigins : Option Package → Option Package → List Origin
  | some p, none => [⟨some (.package p), none⟩]
  | none, some l => [⟨none, some (.package l)⟩]
  | _, _ => []

/-- What the changes of a report go back to, change by change. -/
def originsOf (P Q : Option Package) : List Origin :=
  presenceOrigins P Q ++ (findings (present P) (present Q)).map Finding.origin

/-- A change of presence is the removal or the addition of a package. -/
theorem mem_diffPresence {P Q : Option Package} {c : Change} (h : c ∈ diffPresence P Q) :
    (∃ p : Package, c = .removed .major .packageRemoved p.snippet) ∨
      ∃ l : Package, c = .added .minor .packageAdded l.snippet := by
  unfold diffPresence at h
  split at h
  · next p => exact Or.inl ⟨p, List.mem_singleton.mp h⟩
  · next l => exact Or.inr ⟨l, List.mem_singleton.mp h⟩
  · cases h

/-- Changes of presence go back to the packages themselves. -/
theorem comesFrom_presenceOrigins (P Q : Option Package) :
    List.Forall₂ Change.ComesFrom (diffPresence P Q) (presenceOrigins P Q) := by
  cases P with
  | none =>
    cases Q with
    | none => exact .nil
    | some l =>
      refine .cons ⟨rfl, rfl, ?_⟩ .nil
      rintro i (⟨⟨⟩⟩ | ⟨⟨⟩⟩)
      rfl
  | some p =>
    cases Q with
    | none =>
      refine .cons ⟨rfl, rfl, ?_⟩ .nil
      rintro i (⟨⟨⟩⟩ | ⟨⟨⟩⟩)
      rfl
    | some l => exact .nil

/-- The changes of a report go back to their origins, one by one. -/
theorem comesFrom_origins (P Q : Option Package) :
    List.Forall₂ Change.ComesFrom (comparePackages P Q) (originsOf P Q) := by
  rw [comparePackages_eq_of_present, originsOf]
  refine List.rel_append (comesFrom_presenceOrigins P Q) ?_
  rw [List.forall₂_map_left_iff, List.forall₂_map_right_iff, List.forall₂_same]
  exact fun f hf => comesFrom_of_mem_findings hf

theorem itemsOf_eq (p : Option Package) :
    itemsOf p =
      p.toList.map .package ++ (byCategory Decl.category (present p).surface).map .decl := by
  cases p <;> rfl

/-- Origins have the packages themselves on their sides, at most, and then what findings have. -/
theorem filterMap_originsOf {P Q : Option Package} {side : Origin → Option Item}
    {declSide : Finding → Option Decl} (h : ∀ f, side f.origin = (declSide f).map .decl) :
    (originsOf P Q).filterMap side = (presenceOrigins P Q).filterMap side ++
      ((findings (present P) (present Q)).filterMap declSide).map .decl := by
  rw [originsOf, List.filterMap_append, List.filterMap_map, List.map_filterMap]
  congr 2
  funext f
  exact h f

/-- Earlier sides are items of the first package, in order and each at most once. -/
theorem previous_origins_sublist (P Q : Option Package) :
    ((originsOf P Q).filterMap Origin.previous).Sublist (itemsOf P) := by
  have hpresence : ((presenceOrigins P Q).filterMap Origin.previous).Sublist
      (P.toList.map .package) := by
    cases P <;> cases Q <;> simp [presenceOrigins]
  rw [filterMap_originsOf fun _ => rfl, itemsOf_eq]
  exact hpresence.append ((previous_sublist (present P) (present Q)).map _)

/-- What is new are items of the second package, in order. -/
theorem added_origins_sublist (P Q : Option Package) :
    ((originsOf P Q).filterMap Origin.added?).Sublist (itemsOf Q) := by
  have hpresence : ((presenceOrigins P Q).filterMap Origin.added?).Sublist
      (Q.toList.map .package) := by
    cases P <;> cases Q <;> simp [presenceOrigins, Origin.added?]
  have hnew : ∀ f : Finding, f.origin.added? = f.subject.added?.map Item.decl := by
    rintro ⟨r, d | d | ⟨d, e⟩⟩ <;> rfl
  rw [filterMap_originsOf hnew, itemsOf_eq]
  exact hpresence.append ((added_sublist (present P) (present Q)).map _)

/-- Later sides are items of the second package, each at most once. -/
theorem latest_origins_subperm (P Q : Option Package) :
    ((originsOf P Q).filterMap Origin.latest).Subperm (itemsOf Q) := by
  have hpresence : ((presenceOrigins P Q).filterMap Origin.latest).Sublist
      (Q.toList.map .package) := by
    cases P <;> cases Q <;> simp [presenceOrigins]
  obtain ⟨decls, hperm, hsub⟩ := latest_subperm (present P) (present Q)
  rw [filterMap_originsOf fun _ => rfl, itemsOf_eq]
  exact ⟨_, (hperm.map Item.decl).append_left _, hpresence.append (hsub.map Item.decl)⟩

/-- The changes of a report are in order. -/
theorem pairwise_comparePackages (P Q : Option Package) :
    (comparePackages P Q).Pairwise fun c d => c.reason.MayPrecede d.reason := by
  rw [comparePackages_eq_of_present, List.pairwise_append]
  refine ⟨?_, ?_, ?_⟩
  · cases P <;> cases Q <;> simp [diffPresence]
  · rw [List.pairwise_map]
    exact pairwise_findings (present P) (present Q)
  · intro c hc d hd
    obtain ⟨⟨r, x⟩, hf, rfl⟩ := List.mem_map.mp hd
    have htopic := (reason_of_report (mem_findings_iff.mp hf).2).1
    have hpackage : c.reason.topic = .package := by
      rcases mem_diffPresence hc with ⟨p, rfl⟩ | ⟨l, rfl⟩ <;> rfl
    left
    show c.reason.topic.place < r.topic.place
    rw [hpackage, htopic, Pair.place_topic]
    cases x.category <;> decide

/-- The changes of a report are well formed. -/
theorem wellFormed_of_mem {P Q : Option Package} {c : Change} (h : c ∈ comparePackages P Q) :
    c.WellFormed := by
  rw [comparePackages_eq_of_present, List.mem_append, List.mem_map] at h
  rcases h with h | ⟨f, hf, rfl⟩
  · rcases mem_diffPresence h with ⟨p, rfl⟩ | ⟨l, rfl⟩
    · exact .removed rfl
    · exact .added rfl
  · exact wellFormed_of_mem_findings hf

/-- **Every report is well formed, traceable and in order.**  For packages either of which may be
absent, each change has the severity and the sides of its reason.  The changes quote, one by one,
the sides of origins: the earlier sides are the first package or its extracted declarations, the
later sides those of the second package, each occurrence at most once.  Topics come in the order package,
constants and variables, functions, types; within a topic the earlier sides are in the order of the
first package, and then additions are in the order of the second one.  So no change is a patch, and
a report is one only if it is empty. -/
theorem changes_come_from_items (P Q : Option Package) :
    (∀ c ∈ comparePackages P Q, c.WellFormed) ∧
    (∃ origins : List Origin,
      List.Forall₂ Change.ComesFrom (comparePackages P Q) origins ∧
      (origins.filterMap Origin.previous).Sublist (itemsOf P) ∧
      (origins.filterMap Origin.added?).Sublist (itemsOf Q) ∧
      (origins.filterMap Origin.latest).Subperm (itemsOf Q)) ∧
    (comparePackages P Q).Pairwise (fun c d => c.reason.MayPrecede d.reason) ∧
    (∀ c ∈ comparePackages P Q, c.severity ≠ .patch) ∧
    (Diff.severity (comparePackages P Q) = .patch ↔ comparePackages P Q = []) := by
  have hpatch : ∀ c ∈ comparePackages P Q, c.severity ≠ .patch :=
    fun c hc => (wellFormed_of_mem hc).severity_ne_patch
  refine ⟨fun c hc => wellFormed_of_mem hc, ⟨originsOf P Q, comesFrom_origins P Q, ?_, ?_, ?_⟩,
    pairwise_comparePackages P Q, hpatch, Diff.severity_eq_patch_iff hpatch⟩
  · exact previous_origins_sublist P Q
  · exact added_origins_sublist P Q
  · exact latest_origins_subperm P Q

end GoSurface
