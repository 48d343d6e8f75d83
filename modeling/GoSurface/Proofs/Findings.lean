/-
# What a comparison finds, declaration by declaration

A change quotes declarations; a finding has the declarations themselves.  The changes between two
packages are the findings about the pairs of their extracted declarations, kind after kind, so what
is proved of findings is proved of changes.

* `byCategory`: a list in the order of a report, constants and variables, functions, types;
* `Finding`, `findings`: a reason with the pair of declarations that it is about, and all of them;
* `removedDecls_eq`, `addedDecls_eq`, `changedDecls_perm`: which declarations are reported;
* `comparePackages_eq_findings`: changes are findings, quoted.
-/
import GoSurface.Proofs.Partners
import GoSurface.Proofs.Surface

namespace GoSurface

/-! ## Categories -/

/-- The kinds of declaration that are compared apart from each other. -/
inductive Category where
  | value
  | func
  | type
deriving DecidableEq

/-- The categories in the order of a report. -/
def Category.inOrder : List Category := [.value, .func, .type]

/-- The category of a declaration. -/
def Decl.category : Decl → Category
  | .value _ => .value
  | .func _ => .func
  | .type _ => .type

/-- The category of a pair: that of its first entry. -/
def Pair.category : Pair Decl → Category
  | .removed d => d.category
  | .added d => d.category
  | .both d _ => d.category

section Order

variable {α β : Type} {category : α → Category} {category' : β → Category}

/-- The entries of a list, category after category. -/
def byCategory (category : α → Category) (xs : List α) : List α :=
  Category.inOrder.flatMap fun c => xs.filter fun x => category x = c

theorem byCategory_eq (category : α → Category) (xs : List α) :
    byCategory category xs = (xs.filter fun x => category x = .value) ++
      (xs.filter fun x => category x = .func) ++ xs.filter fun x => category x = .type := by
  simp [byCategory, Category.inOrder]

/-- Choosing keeps the order of the blocks if it keeps categories. -/
theorem filterMap_byCategory {g : α → Option β}
    (h : ∀ x y, g x = some y → category' y = category x) (xs : List α) :
    (byCategory category xs).filterMap g = byCategory category' (xs.filterMap g) := by
  have hblock : ∀ c, (xs.filterMap g).filter (fun y => category' y = c) =
      (xs.filter fun x => category x = c).filterMap g :=
    fun c => filterMap_filter_comm (fun x y hxy => by rw [h x y hxy]) xs
  simp only [byCategory_eq, List.filterMap_append, hblock]

theorem map_byCategory {f : α → β} (h : ∀ x, category' (f x) = category x) (xs : List α) :
    (byCategory category xs).map f = byCategory category' (xs.map f) := by
  simp only [byCategory_eq, List.map_append, List.filter_map, Function.comp_def, h]

/-- Nothing is lost by putting a list in order. -/
theorem byCategory_perm (category : α → Category) (xs : List α) :
    (byCategory category xs).Perm xs := by
  rw [byCategory_eq]
  induction xs with
  | nil => exact .nil
  | cons x xs ih =>
    refine List.Perm.trans ?_ (ih.cons x)
    cases hx : category x with
    | value => simp [hx]
    | func =>
      simp only [List.filter_cons, hx, reduceCtorEq, decide_false, decide_true, if_true,
        Bool.false_eq_true, if_false, List.append_assoc, List.cons_append]
      exact List.perm_middle
    | type =>
      simp only [List.filter_cons, hx, reduceCtorEq, decide_false, decide_true, if_true,
        Bool.false_eq_true, if_false]
      exact List.perm_middle

@[simp] theorem mem_byCategory {x : α} {xs : List α} : x ∈ byCategory category xs ↔ x ∈ xs :=
  (byCategory_perm category xs).mem_iff

end Order

/-! ## Findings -/

/-- The quotation of a declaration. -/
def Decl.snippet : Decl → Snippet
  | .value v => v.snippet
  | .func f => f.snippet
  | .type t => t.snippet

/-- Why a new declaration is reported. -/
def Decl.additionReason : Decl → Reason
  | .value v => .valueAdded v.kind
  | .func _ => .functionAdded
  | .type _ => .typeAdded

/-- Why a lost declaration is reported. -/
def Decl.removalReason : Decl → Reason
  | .value v => .valueRemoved v.kind
  | .func _ => .functionRemoved
  | .type _ => .typeRemoved

/-- Why two declarations of two packages differ, if they do. -/
def Decl.difference? (previous latest : Package) : Decl → Decl → Option Reason
  | .value p, .value l => p.difference? l
  | .func p, .func l => p.difference? l
  | .type p, .type l => p.difference? previous l latest
  | _, _ => none

theorem Decl.severity_additionReason (d : Decl) : d.additionReason.severity = .minor := by
  cases d <;> rfl

theorem Decl.severity_removalReason (d : Decl) : d.removalReason.severity = .major := by
  cases d <;> rfl

/-- Something to report: a reason and the declarations that it is about. -/
structure Finding where
  reason : Reason
  subject : Pair Decl

/-- The change that quotes the declarations of a finding. -/
def Finding.change (f : Finding) : Change :=
  ⟨f.reason.severity, f.reason, f.subject.previous?.map Decl.snippet,
    f.subject.latest?.map Decl.snippet⟩

/-- Why a pair of declarations is reported, if it is: everything new, everything lost except the
methods of unexported types, and partners that differ. -/
def reportReason? (previous latest : Package) : Pair Decl → Option Reason
  | .removed p => if p.isHidden then none else some p.removalReason
  | .added l => some l.additionReason
  | .both p l => p.difference? previous latest l

/-- What there is to report about a pair of declarations. -/
def finding? (previous latest : Package) (x : Pair Decl) : Option Finding :=
  (reportReason? previous latest x).map fun reason => ⟨reason, x⟩

/-- The extracted declarations of two packages, paired by key. -/
def Package.pairs (previous latest : Package) : List (Pair Decl) :=
  pairByKey Decl.key previous.surface latest.surface

/-- What there is to report about two packages, in the order of a report. -/
def findings (previous latest : Package) : List Finding :=
  (byCategory Pair.category (previous.pairs latest)).filterMap (finding? previous latest)

/-- A finding is about a pair that is reported for its reason. -/
theorem mem_findings_iff {P Q : Package} {r : Reason} {x : Pair Decl} :
    ⟨r, x⟩ ∈ findings P Q ↔ x ∈ P.pairs Q ∧ reportReason? P Q x = some r := by
  simp only [findings, finding?, List.mem_filterMap, mem_byCategory, Option.map_eq_some_iff]
  constructor
  · rintro ⟨y, hy, reason, hreason, heq⟩
    obtain ⟨rfl, rfl⟩ := Finding.mk.inj heq
    exact ⟨hy, hreason⟩
  · rintro ⟨hx, hreason⟩
    exact ⟨x, hx, r, hreason, rfl⟩

/-! ## Declarations in a report -/

/-- The declarations that are reported as removed. -/
def removedDecls (previous latest : Package) : List Decl :=
  (findings previous latest).filterMap fun f => f.subject.removed?

/-- The declarations that are reported as added. -/
def addedDecls (previous latest : Package) : List Decl :=
  (findings previous latest).filterMap fun f => f.subject.added?

/-- The pairs of declarations that are reported as changed. -/
def changedDecls (previous latest : Package) : List (Decl × Decl) :=
  (findings previous latest).filterMap fun f => f.subject.partners?

/-- The extracted declarations of a package without a partner in another one, in the order of a
report. -/
def Package.unmatched (p q : Package) : List Decl :=
  byCategory Decl.category ((p.pairs q).filterMap Pair.removed?)

/-- Choosing among the subjects of findings is choosing among all pairs, if the choice tells which
pairs are reported. -/
theorem filterMap_subject_findings {β : Type} {P Q : Package} {g : Pair Decl → Option β}
    {q : β → Bool} (h : ∀ x y, g x = some y → q y = (reportReason? P Q x).isSome) :
    ((findings P Q).filterMap fun f => g f.subject) =
      ((byCategory Pair.category (P.pairs Q)).filterMap g).filter q := by
  rw [filterMap_filter_comm h, findings, List.filterMap_filterMap, List.filterMap_filter]
  congr 1
  funext x
  cases hx : reportReason? P Q x <;> simp [finding?, hx]

/-- Removed are the unmatched declarations, except the methods of unexported types. -/
theorem removedDecls_eq (P Q : Package) :
    removedDecls P Q = (P.unmatched Q).filter fun d => !d.isHidden := by
  have hreported : ∀ (x : Pair Decl) d, x.removed? = some d →
      (!d.isHidden) = (reportReason? P Q x).isSome := by
    rintro (p | l | ⟨p, l⟩) d ⟨⟩
    cases h : p.isHidden <;> simp [reportReason?, h]
  have hcategory : ∀ (x : Pair Decl) d, x.removed? = some d → d.category = x.category := by
    rintro (p | l | ⟨p, l⟩) d ⟨⟩
    rfl
  rw [removedDecls, filterMap_subject_findings hreported, filterMap_byCategory hcategory,
    Package.unmatched]

/-- Added are the unmatched declarations of the second package, all of them. -/
theorem addedDecls_eq (P Q : Package) : addedDecls P Q = Q.unmatched P := by
  have hreported : ∀ (x : Pair Decl) d, x.added? = some d →
      true = (reportReason? P Q x).isSome := by
    rintro (p | l | ⟨p, l⟩) d ⟨⟩
    rfl
  have hcategory : ∀ (x : Pair Decl) d, x.added? = some d → d.category = x.category := by
    rintro (p | l | ⟨p, l⟩) d ⟨⟩
    rfl
  rw [addedDecls, filterMap_subject_findings hreported, List.filter_true,
    filterMap_byCategory hcategory, Package.unmatched, Package.pairs, Package.pairs,
    added_pairByKey_swap]

/-- Changed are the partners that differ. -/
theorem changedDecls_perm (P Q : Package) :
    (changedDecls P Q).Perm
      (((P.pairs Q).filterMap Pair.partners?).filter fun x =>
        (x.1.difference? P Q x.2).isSome) := by
  have hreported : ∀ (x : Pair Decl) y, x.partners? = some y →
      (y.1.difference? P Q y.2).isSome = (reportReason? P Q x).isSome := by
    rintro (p | l | ⟨p, l⟩) y ⟨⟩
    rfl
  rw [changedDecls, filterMap_subject_findings hreported]
  exact ((byCategory_perm _ _).filterMap _).filter _

/-! ## Changes as findings -/

/-- The declarations of a kind are told by their keys. -/
theorem Decl.IsKind.selects {β ι : Type} {choose : Decl → Option β} {wrap : β → Decl}
    {subkey : β → ι} {embed : ι → DeclKey} {exported : β → Bool}
    (h : IsKind choose wrap subkey embed exported) : Selects Decl.key subkey choose embed where
  injective := h.injective
  key_eq d b hb := by rw [h.choose_eq_some_iff.mp hb, h.key_wrap]
  exists_of_key d k hkey := by
    obtain ⟨b, rfl, -⟩ := h.exists_of_key hkey
    exact ⟨b, h.choose_eq_some_iff.mpr rfl⟩

/-- The findings of one category, quoted. -/
theorem map_change_filter (P Q : Package) (c : Category) (xs : List (Pair Decl)) :
    ((xs.filter fun x => x.category = c).filterMap (finding? P Q)).map Finding.change =
      xs.filterMap fun x =>
        if x.category = c then (finding? P Q x).map Finding.change else none := by
  rw [List.map_filterMap, List.filterMap_filter]
  simp only [decide_eq_true_eq]

/-- Changes of constants and variables are findings. -/
theorem diffValues_eq (P Q : Package) :
    diffValues (some P) (some Q) =
      (((P.pairs Q).filter fun x => x.category = .value).filterMap (finding? P Q)).map
        Finding.change := by
  rw [diffValues, exportedValues_some, exportedValues_some,
    pairByKey_select Decl.isKind_value.selects, List.filterMap_filterMap, map_change_filter,
    Package.pairs]
  congr 1
  funext x
  rcases x with (_ | _ | v) | (_ | _ | v) | ⟨_ | _ | v, _ | _ | w⟩
  case both.value.value =>
    cases h : v.same w <;>
      simp [Pair.choose?, Decl.value?, valueChange, finding?, reportReason?, Decl.difference?,
        ValueSpec.difference?, Pair.category, Decl.category, Finding.change, Change.changed,
        Reason.severity, Pair.previous?, Pair.latest?, Decl.snippet, h]
  all_goals rfl

/-- Changes of functions are findings. -/
theorem diffFunctions_eq (P Q : Package) :
    diffFunctions (some P) (some Q) =
      (((P.pairs Q).filter fun x => x.category = .func).filterMap (finding? P Q)).map
        Finding.change := by
  rw [diffFunctions, exportedFuncs_some, exportedFuncs_some,
    pairByKey_select Decl.isKind_func.selects, List.filterMap_filterMap, map_change_filter,
    Package.pairs]
  congr 1
  funext x
  rcases x with (f | _ | _) | (f | _ | _) | ⟨f | _ | _, g | _ | _⟩
  case removed.func =>
    cases h : f.isHidden <;>
      simp [Pair.choose?, Decl.func?, funcChange, finding?, reportReason?, Decl.isHidden,
        Decl.removalReason, Pair.category, Decl.category, Finding.change, Change.removed,
        Reason.severity, Pair.previous?, Pair.latest?, Decl.snippet, h]
  case both.func.func =>
    cases h : f.difference? g <;>
      simp [Pair.choose?, Decl.func?, funcChange_both, finding?, reportReason?, Decl.difference?,
        Pair.category, Decl.category, Finding.change, Change.changed, Pair.previous?,
        Pair.latest?, Decl.snippet, h]
  all_goals rfl

/-- Changes of types are findings. -/
theorem diffTypes_eq (P Q : Package) :
    diffTypes (some P) (some Q) =
      (((P.pairs Q).filter fun x => x.category = .type).filterMap (finding? P Q)).map
        Finding.change := by
  rw [diffTypes, exportedTypes_some, exportedTypes_some,
    pairByKey_select Decl.isKind_type.selects, List.filterMap_filterMap, map_change_filter,
    Package.pairs]
  congr 1
  funext x
  rcases x with (_ | t | _) | (_ | t | _) | ⟨_ | t | _, _ | u | _⟩
  case both.type.type =>
    cases h : t.difference? P u Q <;>
      simp [Pair.choose?, Decl.type?, typeChange_both, finding?, reportReason?, Decl.difference?,
        Pair.category, Decl.category, Finding.change, Change.changed, Pair.previous?,
        Pair.latest?, Decl.snippet, h]
  all_goals rfl

/-- **Changes are findings, quoted.** -/
theorem comparePackages_eq_findings (P Q : Package) :
    comparePackages (some P) (some Q) = (findings P Q).map Finding.change := by
  rw [comparePackages, diffValues_eq, diffFunctions_eq, diffTypes_eq, findings, byCategory_eq,
    List.filterMap_append, List.filterMap_append, List.map_append, List.map_append]
  rfl

end GoSurface
