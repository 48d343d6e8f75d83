/-
# Declarations in another order

A package is compared as a set of declarations: how they are ordered, and how they are spread over
files, decides the order of the changes and nothing else.  Three tables could tell the order.  The
scope lets the last declaration of a name win, a type is looked up by its first declaration, and of
several declarations with one key the first is paired.  Distinct keys, distinct type names and
bindings that agree silence all three.

* `Package.RearrangedAs`: the same declarations in another order and in other files;
* `comparePackages_of_rearranged`: the same changes, and in the same order if only the files differ.
-/
import GoSurface.Proofs.Binding
import GoSurface.Proofs.Findings
import GoSurface.Proofs.Following

namespace GoSurface

/-! ## Comparing by what is extracted -/

section Comparing

variable {P P' : Package}

/-- Why a pair is reported depends on the earlier package through what its types stand for. -/
theorem finding?_congr_left (hfollow : ∀ t, P.follow t = P'.follow t) (R : Package) :
    finding? P R = finding? P' R := by
  have hdifference : ∀ d e : Decl, d.difference? P R e = d.difference? P' R e := by
    intro d e
    cases d with
    | type t =>
      cases e with
      | type u => simp only [Decl.difference?, TypeSpec.difference?, hfollow t]
      | _ => rfl
    | _ => cases e <;> rfl
  funext x
  cases x with
  | both d e => simp only [finding?, reportReason?, hdifference d e]
  | _ => rfl

/-- Why a pair is reported depends on the later package through what its types stand for. -/
theorem finding?_congr_right (hfollow : ∀ t, P.follow t = P'.follow t) (R : Package) :
    finding? R P = finding? R P' := by
  have hdifference : ∀ d e : Decl, d.difference? R P e = d.difference? R P' e := by
    intro d e
    cases d with
    | type t =>
      cases e with
      | type u => simp only [Decl.difference?, TypeSpec.difference?, hfollow u]
      | _ => rfl
    | _ => cases e <;> rfl
  funext x
  cases x with
  | both d e => simp only [finding?, reportReason?, hdifference d e]
  | _ => rfl

/-- What is found about pairs in another order is the same, in another order. -/
theorem filterMap_byCategory_perm {xs ys : List (Pair Decl)} (h : xs.Perm ys)
    (g : Pair Decl → Option Finding) :
    ((byCategory Pair.category xs).filterMap g).Perm
      ((byCategory Pair.category ys).filterMap g) := by
  have hsorted : (byCategory Pair.category xs).Perm (byCategory Pair.category ys) :=
    (byCategory_perm _ xs).trans (h.trans (byCategory_perm _ ys).symm)
  exact hsorted.filterMap g

/-- The order of the extracted declarations decides the order of the changes only. -/
theorem comparePackages_perm (hsurface : P.surface.Perm P'.surface) (hkeys : P.KeysDistinct)
    (hfollow : ∀ t, P.follow t = P'.follow t) (R : Package) :
    (comparePackages (some P) (some R)).Perm (comparePackages (some P') (some R)) ∧
      (comparePackages (some R) (some P)).Perm (comparePackages (some R) (some P')) := by
  simp only [comparePackages_eq_findings, findings, finding?_congr_left hfollow R,
    finding?_congr_right hfollow R]
  have hleft : (P.pairs R).Perm (P'.pairs R) := pairByKey_perm_left hsurface hkeys R.surface
  have hright : (R.pairs P).Perm (R.pairs P') := pairByKey_perm_right hsurface hkeys R.surface
  exact ⟨(filterMap_byCategory_perm hleft _).map _, (filterMap_byCategory_perm hright _).map _⟩

/-- Packages that are both present are compared by their declarations, wherever these stand. -/
theorem comparePackages_eq_of_decls (hdecls : P.decls = P'.decls) (R : Package) :
    comparePackages (some P) (some R) = comparePackages (some P') (some R) ∧
      comparePackages (some R) (some P) = comparePackages (some R) (some P') := by
  have hsurface : P.surface = P'.surface := by rw [Package.surface, Package.surface, hdecls]
  have hspec : ∀ name, P.typeSpec? name = P'.typeSpec? name := by
    intro name
    rw [Package.typeSpec?, Package.typeSpec?, Package.types, Package.types, hdecls]
  have hfollow : ∀ t, P.follow t = P'.follow t :=
    fun t => Package.follow_congr fun name _ => hspec name
  simp only [comparePackages_eq_findings, findings, finding?_congr_left hfollow R,
    finding?_congr_right hfollow R, Package.pairs, hsurface, and_self]

end Comparing

/-! ## Tables that do not tell the order -/

/-- If entries of one name agree, then a name is looked up alike in any order. -/
theorem lookup_eq_of_perm {β : Type} {xs ys : List (String × β)} (hperm : xs.Perm ys)
    (hagree : ∀ x ∈ xs, ∀ y ∈ xs, x.1 = y.1 → x.2 = y.2) (name : String) :
    xs.lookup name = ys.lookup name := by
  cases hx : xs.lookup name with
  | none =>
    cases hy : ys.lookup name with
    | none => rfl
    | some b => exact absurd hx (lookup_ne_none (hperm.mem_iff.mpr (mem_of_lookup hy)))
  | some b =>
    cases hy : ys.lookup name with
    | none => exact absurd hy (lookup_ne_none (hperm.mem_iff.mp (mem_of_lookup hx)))
    | some b' =>
      have hb := hagree _ (mem_of_lookup hx) _ (hperm.mem_iff.mpr (mem_of_lookup hy)) rfl
      exact congrArg some hb

/-- The second package has the declarations of the first one in any order and in any files.  The
keys of extracted declarations and the names of types are distinct, and declarations that introduce
one name bind it alike. -/
structure Package.RearrangedAs (p q : Package) : Prop where
  perm : p.decls.Perm q.decls
  keys : p.KeysDistinct
  types : (p.types.map TypeSpec.key).Nodup
  bindings : ∀ d ∈ p.decls, ∀ e ∈ p.decls, ∀ x ∈ d.declares, ∀ y ∈ e.declares,
    x.1 = y.1 → x.2 = y.2

namespace Package.RearrangedAs

variable {p q : Package}

/-- Names stand for the same, whichever declaration comes last. -/
theorem lookup_scope (h : p.RearrangedAs q) (name : String) :
    p.scope.lookup name = q.scope.lookup name := by
  have hscope : p.scope.Perm q.scope :=
    (List.reverse_perm _).trans ((h.perm.flatMap_right _).trans (List.reverse_perm _).symm)
  refine lookup_eq_of_perm hscope ?_ name
  intro x hx y hy hname
  obtain ⟨d, hd, hx⟩ := Package.mem_scope.mp hx
  obtain ⟨e, he, hy⟩ := Package.mem_scope.mp hy
  exact h.bindings d hd e he x hx y hy hname

theorem resolve_eq (h : p.RearrangedAs q) : Decl.resolve p.scope = Decl.resolve q.scope := by
  funext d
  exact Decl.resolve_congr fun x _ => h.lookup_scope x.name

theorem decls_resolve_perm (h : p.RearrangedAs q) : p.resolve.decls.Perm q.resolve.decls := by
  rw [Package.decls_resolve, Package.decls_resolve, h.resolve_eq]
  exact h.perm.map _

/-- The resolved packages have the same types, of distinct names. -/
theorem typeSpec?_eq (h : p.RearrangedAs q) (name : String) :
    p.resolve.typeSpec? name = q.resolve.typeSpec? name := by
  have hperm : p.resolve.types.Perm q.resolve.types := h.decls_resolve_perm.filterMap _
  have hkeys : p.resolve.types.map TypeSpec.key = p.types.map TypeSpec.key := by
    rw [Package.types_resolve, List.map_map]
    rfl
  have hnodup : (p.resolve.types.map TypeSpec.key).Nodup := hkeys ▸ h.types
  exact find?_key_eq_of_perm hperm hnodup name

theorem follow_eq (h : p.RearrangedAs q) (t : TypeSpec) :
    p.resolve.follow t = q.resolve.follow t :=
  Package.follow_congr fun name _ => h.typeSpec?_eq name

theorem surface_perm (h : p.RearrangedAs q) : p.resolve.surface.Perm q.resolve.surface :=
  h.decls_resolve_perm.filter _

/-- Keys are distinct in the resolved package too. -/
theorem keysDistinct_resolve (h : p.RearrangedAs q) : p.resolve.KeysDistinct := by
  have hkeys : p.resolve.surface.map Decl.key = p.surface.map Decl.key := by
    rw [Package.surface_resolve, List.map_map]
    exact List.map_congr_left fun d _ => d.key_resolve p.scope
  rw [Package.KeysDistinct, hkeys]
  exact h.keys

end Package.RearrangedAs

/-- **Order and files do not matter.**  Packages with the same declarations, in any order and in
any files, are compared alike with every package: the changes are the same up to their order.  If
only the files differ, then the order is the same too. -/
theorem comparePackages_of_rearranged (p q r : Package) :
    (p.RearrangedAs q →
      (comparePackages (some p.resolve) (some r)).Perm
        (comparePackages (some q.resolve) (some r)) ∧
      (comparePackages (some r) (some p.resolve)).Perm
        (comparePackages (some r) (some q.resolve))) ∧
    (p.decls = q.decls →
      comparePackages (some p.resolve) (some r) = comparePackages (some q.resolve) (some r) ∧
      comparePackages (some r) (some p.resolve) = comparePackages (some r) (some q.resolve)) := by
  constructor
  · intro h
    exact comparePackages_perm h.surface_perm h.keysDistinct_resolve h.follow_eq r
  · intro hdecls
    have hscope : p.scope = q.scope := by rw [Package.scope, Package.scope, hdecls]
    apply comparePackages_eq_of_decls
    rw [Package.decls_resolve, Package.decls_resolve, hscope, hdecls]

/-- An exported name of an unexported type. -/
def gaugeName : Decl :=
  .type ⟨⟨"Gauge", none⟩, [], true, .ident ⟨"gauge", none⟩, ⟨"gauge.go", 3, 6⟩⟩

/-- The unexported type. -/
def gaugeStruct (fields : List String) : Decl :=
  .type ⟨⟨"gauge", none⟩, [], false,
    .struct [⟨fields.map (⟨·, none⟩), .ident ⟨"int", none⟩, none⟩], ⟨"gauge.go", 5, 6⟩⟩

/-- A function that takes the type by its exported name. -/
def gaugeFunc (name : String) (line : Nat) : Decl :=
  .func ⟨none, ⟨name, none⟩, ⟨[], [⟨[], .pointer (.ident ⟨"Gauge", none⟩), none⟩], []⟩,
    ⟨"gauge.go", line, 1⟩⟩

/-- A package in one file. -/
def gaugeRelease (decls : List Decl) : Package :=
  ⟨"gauge", [⟨"gauge.go", "gauge", decls⟩]⟩

/-- The package with its declarations in two files and in another order. -/
def gaugeSpread : Package :=
  ⟨"gauge", [⟨"funcs.go", "gauge", [gaugeFunc "Reset" 12, gaugeFunc "Read" 9]⟩,
    ⟨"types.go", "gauge", [gaugeStruct ["Level"], gaugeName]⟩]⟩

/-- Two functions are dropped and a struct grows.  The functions are reported in the order of the
package, the struct is found behind its name in both. -/
theorem comparePackages_gaugeSpread :
    (gaugeRelease [gaugeName, gaugeStruct ["Level"], gaugeFunc "Read" 9,
      gaugeFunc "Reset" 12]).RearrangedAs gaugeSpread ∧
    (comparePackages (some (gaugeRelease [gaugeName, gaugeStruct ["Level"], gaugeFunc "Read" 9,
        gaugeFunc "Reset" 12]).resolve)
      (some (gaugeRelease [gaugeName, gaugeStruct ["Level", "Unit"]]).resolve)).Perm
      (comparePackages (some gaugeSpread.resolve)
        (some (gaugeRelease [gaugeName, gaugeStruct ["Level", "Unit"]]).resolve)) ∧
    (comparePackages (some gaugeSpread.resolve)
      (some (gaugeRelease [gaugeName, gaugeStruct ["Level", "Unit"]]).resolve)).map
        (fun c => (c.reason, c.snippets.map Snippet.name)) =
      [(.functionRemoved, ["Reset"]), (.functionRemoved, ["Read"]),
        (.fieldsAppended, ["Gauge", "Gauge"])] := by
  have hperm : [gaugeName, gaugeStruct ["Level"], gaugeFunc "Read" 9, gaugeFunc "Reset" 12].Perm
      [gaugeFunc "Reset" 12, gaugeFunc "Read" 9, gaugeStruct ["Level"], gaugeName] :=
    (List.reverse_perm _).symm
  have hrearranged : (gaugeRelease [gaugeName, gaugeStruct ["Level"], gaugeFunc "Read" 9,
      gaugeFunc "Reset" 12]).RearrangedAs gaugeSpread :=
    ⟨hperm, by decide +kernel, by decide +kernel, by decide +kernel⟩
  refine ⟨hrearranged, ?_, by decide +kernel⟩
  exact ((comparePackages_of_rearranged _ _ _).1 hrearranged).1

end GoSurface
