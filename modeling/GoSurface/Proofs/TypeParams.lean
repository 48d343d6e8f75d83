/-
# Names of type parameters

The names in a type-parameter list do not count, but references to type parameters are compared by
their spelling, and no declaration is known for them.  So a function whose type parameters keep
their names is reported exactly when its signatures differ; if they are renamed, every one that the
signature refers to is noticed, and a type parameter can be taken for a declaration of its name.

* `Fields.renaming`, `Ident.renamed`: type parameters under the names of another list;
* `Expr.Opposite`: trees at the same place of two trees that are compared;
* `Signature.SameUpToParams`: signatures that are the same once type parameters are renamed;
* `unreported_iff_sameUpToParams`: how far comparing respects this.
-/
import GoSurface.Proofs.Arity
import GoSurface.Proofs.Binding
import GoSurface.Proofs.Members
import GoSurface.Proofs.Spelling

namespace GoSurface

/-! ## What is reported of a function -/

/-- No change quotes this. -/
def Diff.Omits (d : Diff) (s : Snippet) : Prop :=
  ∀ c ∈ d, s ∉ c.snippets

/-- Plain functions have a text of their own: the text of a method starts with its receiver. -/
theorem FuncDecl.key_eq_of_snippet_eq {f g : FuncDecl} (hplain : f.recv = none)
    (hexported : f.name.isExported = true) (h : g.snippet = f.snippet) : g.key = f.key := by
  have hname : g.name.name = f.name.name := congrArg Snippet.name h
  have htext : g.text = f.text := congrArg Snippet.text h
  obtain ⟨recv, x, sig, position⟩ := f
  obtain ⟨recv', x', sig', position'⟩ := g
  obtain rfl : recv = none := hplain
  have hrecv : recv' = none := by
    cases recv' with
    | none => rfl
    | some fs =>
      -- The receiver's parenthesis would be the first letter of an exported name.
      have hletters := congrArg String.toList htext
      simp only [FuncDecl.text, Fields.paramsText, paramsBody, String.toList_append,
        List.append_assoc, List.append_cancel_left_eq] at hletters
      have hupper : isExported x.name = true := hexported
      rw [isExported] at hupper
      cases hfirst : x.name.toList with
      | nil => simp [hfirst] at hupper
      | cons c cs =>
        rw [hfirst] at hletters hupper
        obtain rfl : '(' = c := (List.cons.inj (show '(' :: _ = c :: _ from hletters)).1
        exact absurd (show Text.isUppercase '(' = true from hupper) (by decide)
  subst hrecv
  exact congrArg (fun name => (name, none)) hname

/-- Of a key that is declared once on each side, there is one pair. -/
theorem Package.DeclaresOnce.pair_eq_both {P Q : Package} {d e : Decl} (hd : P.DeclaresOnce d)
    (he : Q.DeclaresOnce e) (hkey : e.key = d.key) {x : Pair Decl} (hx : x ∈ P.pairs Q) :
    (∀ p ∈ x.previous?, p.key = d.key → x = .both d e) ∧
      ∀ l ∈ x.latest?, l.key = d.key → x = .both d e := by
  -- Neither side has a declaration of this key without a partner.
  have hnone : ∀ {P Q : Package} {d e : Decl}, P.DeclaresOnce d → Q.DeclaresOnce e →
      e.key = d.key → ∀ c, c ∈ (P.pairs Q).filterMap Pair.removed? → c.key ≠ d.key := by
    intro P Q d e hd he hkey c hc hckey
    have hcount := count_removed Decl.key P.surface Q.surface d.key
    have hP : (P.surface.map Decl.key).count d.key = 1 := hd.2
    have hQ : (Q.surface.map Decl.key).count d.key = 1 := hkey ▸ he.2
    rw [hP, hQ] at hcount
    exact List.count_eq_zero.mp hcount (hckey ▸ List.mem_map_of_mem hc)
  have hboth : ∀ p l, x = .both p l → p.key = d.key → x = .both d e := by
    rintro p l rfl hpkey
    obtain ⟨hp, hl⟩ := both_mem_pairByKey_iff.mp hx
    rw [partner?_congr hpkey, hd.partner?_eq] at hp
    rw [partner?_congr (hpkey.trans hkey.symm), he.partner?_eq] at hl
    rw [Option.some.inj hp, Option.some.inj hl]
  cases x with
  | removed p =>
    refine ⟨?_, by simp [Pair.latest?]⟩
    rintro _ ⟨⟩ hpkey
    exact absurd hpkey (hnone hd he hkey p (List.mem_filterMap.mpr ⟨_, hx, rfl⟩))
  | added l =>
    refine ⟨by simp [Pair.previous?], ?_⟩
    rintro _ ⟨⟩ hlkey
    have hl : l ∈ (Q.pairs P).filterMap Pair.removed? := by
      rw [Package.pairs, ← added_pairByKey_swap]
      exact List.mem_filterMap.mpr ⟨_, hx, rfl⟩
    exact absurd (hlkey.trans hkey.symm) (hnone he hd hkey.symm l hl)
  | both p l =>
    refine ⟨?_, ?_⟩
    · rintro _ ⟨⟩ hpkey
      exact hboth p l rfl hpkey
    · rintro _ ⟨⟩ hlkey
      exact hboth p l rfl ((key_eq_of_both_mem hx).symm.trans hlkey)

/-- What a change of functions quotes is a function of a pair that is reported. -/
theorem exists_func_of_quoted {P Q : Package} {c : Change} {s : Snippet}
    (hc : c ∈ diffFunctions (some P) (some Q)) (hs : s ∈ c.snippets) :
    ∃ x ∈ P.pairs Q, (∃ r, reportReason? P Q x = some r) ∧
      ∃ h : FuncDecl, h.snippet = s ∧ (Decl.func h ∈ x.previous? ∨ Decl.func h ∈ x.latest?) := by
  rw [diffFunctions_eq] at hc
  obtain ⟨finding, hfinding, rfl⟩ := List.mem_map.mp hc
  obtain ⟨x, hx, hreason⟩ := List.mem_filterMap.mp hfinding
  obtain ⟨hx, hcategory⟩ := List.mem_filter.mp hx
  obtain ⟨r, hr, rfl⟩ := Option.map_eq_some_iff.mp hreason
  refine ⟨x, hx, ⟨r, hr⟩, ?_⟩
  have hfunc : ∀ d : Decl, d.category = .func → ∃ h, d = .func h := by
    rintro (h | t | v) ⟨⟩
    exact ⟨h, rfl⟩
  simp only [decide_eq_true_eq] at hcategory
  simp only [Change.snippets, Finding.change, List.mem_append, Option.mem_toList,
    Option.map_eq_some_iff] at hs
  cases x with
  | removed p =>
    obtain ⟨h, rfl⟩ := hfunc p hcategory
    rcases hs with ⟨_, ⟨⟩, hs⟩ | ⟨_, ⟨⟩, -⟩
    exact ⟨h, hs, Or.inl rfl⟩
  | added l =>
    obtain ⟨h, rfl⟩ := hfunc l hcategory
    rcases hs with ⟨_, ⟨⟩, -⟩ | ⟨_, ⟨⟩, hs⟩
    exact ⟨h, hs, Or.inr rfl⟩
  | both p l =>
    obtain ⟨h, rfl⟩ := hfunc p hcategory
    -- Partners have one key, so they are of one kind.
    obtain ⟨h', rfl, -⟩ := Decl.isKind_func.exists_of_key (key_eq_of_both_mem hx)
    rcases hs with ⟨_, ⟨⟩, hs⟩ | ⟨_, ⟨⟩, hs⟩
    · exact ⟨h, hs, Or.inl rfl⟩
    · exact ⟨h', hs, Or.inr rfl⟩

section Unreported

variable {P Q : Package} {f g : FuncDecl}

/-- A change that quotes a function without a double is about it and its partner. -/
theorem exists_difference?_of_quoted (hf : P.DeclaresOnce (.func f))
    (hg : Q.DeclaresOnce (.func g)) (hkey : g.key = f.key) {h : FuncDecl} (hplain : h.recv = none)
    (hexported : h.name.isExported = true) (hhkey : h.key = f.key) {c : Change}
    (hc : c ∈ diffFunctions (some P) (some Q)) (hquoted : h.snippet ∈ c.snippets) :
    ∃ r, f.difference? g = some r := by
  obtain ⟨x, hx, ⟨r, hr⟩, h', hsnippet, hside⟩ := exists_func_of_quoted hc hquoted
  have hkey' : (Decl.func h').key = (Decl.func f).key := by
    rw [Decl.key, Decl.key, FuncDecl.key_eq_of_snippet_eq hplain hexported hsnippet, hhkey]
  obtain ⟨hprevious, hlatest⟩ := hf.pair_eq_both hg (congrArg DeclKey.func hkey) hx
  have hboth : x = .both (.func f) (.func g) := by
    rcases hside with hside | hside
    · exact hprevious _ hside hkey'
    · exact hlatest _ hside hkey'
  subst hboth
  exact ⟨r, hr⟩

/-- Nothing is reported of a function that two packages have. -/
def Unreported (P Q : Package) (f g : FuncDecl) : Prop :=
  Diff.Omits (diffFunctions (some P) (some Q)) f.snippet ∧
    Diff.Omits (diffFunctions (some P) (some Q)) g.snippet

/-- Nothing is reported of a plain function without a double when its signatures are the same. -/
theorem unreported_iff (hf : P.DeclaresOnce (.func f)) (hg : Q.DeclaresOnce (.func g))
    (hplain : f.recv = none) (hplain' : g.recv = none) (hname : g.name.name = f.name.name) :
    Unreported P Q f g ↔ f.sig.same g.sig = true := by
  have hkey : g.key = f.key := by
    rw [FuncDecl.key, FuncDecl.key, hname, FuncDecl.receiverBase, FuncDecl.receiverBase, hplain,
      hplain']
  have hdifference : f.difference? g =
      if f.sig.same g.sig then none else some .signatureChanged := by
    rw [FuncDecl.difference?, hplain, hplain']
    cases f.sig.same g.sig <;> rfl
  constructor
  · rintro ⟨homits, -⟩
    by_contra hsame
    rw [if_neg hsame] at hdifference
    refine homits _ (mem_diffFunctions_of_difference? hf hg hkey hdifference) ?_
    simp [Change.snippets]
  · intro hsame
    rw [if_pos hsame] at hdifference
    have hexported : f.name.isExported = true := (List.mem_filter.mp hf.1).2
    have hexported' : g.name.isExported = true := (List.mem_filter.mp hg.1).2
    constructor
    · intro c hc hquoted
      obtain ⟨r, hr⟩ := exists_difference?_of_quoted hf hg hkey hplain hexported rfl hc hquoted
      rw [hdifference] at hr
      cases hr
    · intro c hc hquoted
      obtain ⟨r, hr⟩ := exists_difference?_of_quoted hf hg hkey hplain' hexported' hkey hc hquoted
      rw [hdifference] at hr
      cases hr

end Unreported

/-! ## Trees side by side -/

/-- Comparing the first two trees compares the other two with each other. -/
inductive Expr.Opposite : Expr → Expr → Expr → Expr → Prop
  | root (a b : Expr) : Expr.Opposite a b a b
  | part {a b c d x y : Expr} : (c, d) ∈ a.parts.zip b.parts → Expr.Opposite c d x y →
      Expr.Opposite a b x y

/-- Opposite trees are compared in their trees. -/
theorem Expr.Opposite.compares {a b x y : Expr} (h : Expr.Opposite a b x y) :
    a.Compares x ∧ b.Compares y := by
  induction h with
  | root a b => exact ⟨.root a, .root b⟩
  | part hpart _ ih =>
    obtain ⟨hc, hd⟩ := List.of_mem_zip hpart
    exact ⟨.part hc ih.1, .part hd ih.2⟩

/-- Trees that are the same have the same opposite trees. -/
theorem Expr.Opposite.same {a b x y : Expr} (h : Expr.Opposite a b x y) (hsame : a.same b = true) :
    x.same y = true := by
  induction h with
  | root a b => exact hsame
  | part hpart _ ih =>
    obtain ⟨-, -, -, hparts⟩ := (Expr.same_iff _ _).mp hsame
    exact ih (List.forall₂_zip hparts hpart)

/-- Replacing references of a tree without changing those that are compared makes no
difference. -/
theorem Expr.same_mapRefs_of_fixed {f : Ident → Ident} {a b : Expr}
    (h : ∀ y, b.Compares (.ident y) → f y = y) : a.same (b.mapRefs f) = a.same b := by
  induction a using Expr.partInduction generalizing b with
  | step a ih =>
    have hlabels : (b.mapRefs f).labels = b.labels := by
      by_cases hform : b.form = .ident
      · obtain ⟨y, rfl⟩ := Expr.exists_ident_of_form hform
        rw [Expr.mapRefs, h y (.root _)]
      · exact Expr.labels_mapRefs f hform
    have hparts : List.Forall₂ (fun c d => c.same (d.mapRefs f) = true) a.parts b.parts ↔
        List.Forall₂ (fun c d => c.same d = true) a.parts b.parts := by
      apply forall₂_congr_mem
      intro c hc d hd
      rw [ih c hc fun y hy => h y (.part hd hy)]
    rw [Bool.eq_iff_iff, Expr.same_iff, Expr.same_iff, Expr.form_mapRefs, hlabels,
      Expr.parts_mapRefs, List.forall₂_map_right_iff, hparts]

/-- If a tree is the same as another one before and after references are replaced, then those that
are compared have kept their spelling. -/
theorem Expr.name_eq_of_same_mapRefs {f : Ident → Ident} {a b : Expr} {y : Ident}
    (hsame : a.same b = true) (hmapped : a.same (b.mapRefs f) = true)
    (hy : b.Compares (.ident y)) : (f y).name = y.name := by
  induction b using Expr.partInduction generalizing a with
  | step b ih =>
    rw [Expr.same_iff] at hsame hmapped
    obtain ⟨hform, -, hlabels, hparts⟩ := hsame
    obtain ⟨-, -, hlabels', hparts'⟩ := hmapped
    rcases Expr.compares_iff.mp hy with rfl | ⟨c, hc, hy⟩
    · obtain ⟨x, rfl⟩ := Expr.exists_ident_of_form hform
      simp only [Expr.labels, Expr.mapRefs, List.forall₂_cons, NameMode.agree] at hlabels hlabels'
      rw [← Ident.name_eq_of_same hlabels.1, ← Ident.name_eq_of_same hlabels'.1]
    · rw [Expr.parts_mapRefs, List.forall₂_map_right_iff] at hparts'
      obtain ⟨i, hi, rfl⟩ := List.mem_iff_getElem.mp hc
      have hi' : i < a.parts.length := by rw [hparts.length_eq]; exact hi
      exact ih _ hc (hparts.get hi' hi) (hparts'.get hi' hi) hy

/-! ## Renaming -/

/-- The names of the slots of a type-parameter list. -/
def Fields.paramNames (ts : Fields) : List (Option String) :=
  (Fields.labels ts).map (Option.map Ident.name)

/-- The type parameters of a list, each with the name that another list has at its position. -/
def Fields.renaming (ts us : Fields) : List (String × String) :=
  ((Fields.paramNames ts).zip (Fields.paramNames us)).filterMap fun
    | (some name, some other) => some (name, other)
    | _ => none

/-- The reference under another name, if its name is among those to be changed. -/
def Ident.renamed (names : List (String × String)) (x : Ident) : Ident :=
  match names.lookup x.name with
  | some name => { x with name := name }
  | none => x

/-- A reference that keeps its spelling under renaming is not changed. -/
theorem Ident.renamed_eq_self {names : List (String × String)} {x : Ident}
    (h : (x.renamed names).name = x.name) : x.renamed names = x := by
  rw [Ident.renamed] at h ⊢
  cases hname : names.lookup x.name with
  | none => rfl
  | some name =>
    simp only [hname] at h
    rw [h]

theorem Fields.declaredNames_eq_paramNames (ts : Fields) :
    Fields.declaredNames ts = (Fields.paramNames ts).filterMap fun name => name := by
  rw [Fields.declaredNames_eq, Fields.paramNames, List.filterMap_map]
  rfl

/-- Names that stay at their positions are not changed. -/
theorem Ident.renamed_of_paramNames {ts us : Fields}
    (h : Fields.paramNames ts = Fields.paramNames us) (x : Ident) :
    x.renamed (Fields.renaming ts us) = x := by
  rw [Ident.renamed]
  cases hlookup : (Fields.renaming ts us).lookup x.name with
  | none => rfl
  | some name =>
    have hmem := mem_of_lookup hlookup
    rw [Fields.renaming, h, List.mem_filterMap] at hmem
    obtain ⟨⟨_ | n, _ | m⟩, hzip, hpair⟩ := hmem
    all_goals cases hpair
    -- A position of a list stands opposite itself.
    obtain ⟨i, hi, hposition⟩ := List.mem_iff_getElem.mp hzip
    rw [List.getElem_zip, Prod.mk.injEq] at hposition
    rw [Option.some.inj (hposition.2.symm.trans hposition.1)]

/-- The second signature with its type parameters under the names of the first. -/
def Signature.withParamsOf (t s : Signature) : Signature :=
  t.mapRefs (Ident.renamed (Fields.renaming t.typeParams s.typeParams))

/-- A reference to a type parameter never stands opposite a reference to a declaration of the
package. -/
def Signature.ParamsApart (scope scope' : Scope) (s t : Signature) : Prop :=
  ∀ x y, Expr.Opposite (.func s) (.func t) (.ident x) (.ident y) →
    (x.name ∈ Fields.declaredNames s.typeParams → y.name ∉ Fields.declaredNames t.typeParams →
      scope'.lookup y.name = none) ∧
    (y.name ∈ Fields.declaredNames t.typeParams → x.name ∉ Fields.declaredNames s.typeParams →
      scope.lookup x.name = none)

/-- Two signatures are the same once the type parameters of the second have the names of the first,
where type parameters are not taken for declarations of the two packages. -/
def Signature.SameUpToParams (scope scope' : Scope) (s t : Signature) : Prop :=
  s.same (t.withParamsOf s) = true ∧ Signature.ParamsApart scope scope' s t

/-- No type parameter that the second signature refers to has another name in the first. -/
def Signature.KeepsParams (s t : Signature) : Prop :=
  ∀ y, (Expr.func t).Compares (.ident y) →
    (y.renamed (Fields.renaming t.typeParams s.typeParams)).name = y.name

section Params

variable {scope scope' : Scope} {s t : Signature}

/-- If the type parameters referred to keep their names, then renaming makes no difference. -/
theorem Signature.KeepsParams.same_withParamsOf (h : s.KeepsParams t) :
    s.same (t.withParamsOf s) = s.same t := by
  have hfixed : (Expr.func s).same ((Expr.func t).mapRefs
      (Ident.renamed (Fields.renaming t.typeParams s.typeParams))) =
      (Expr.func s).same (.func t) :=
    Expr.same_mapRefs_of_fixed fun y hy => Ident.renamed_eq_self (h y hy)
  exact hfixed

/-- If signatures are the same both before and after renaming, then the type parameters referred to
keep their names. -/
theorem Signature.keepsParams_of_same (hsame : s.same t = true)
    (hrenamed : s.same (t.withParamsOf s) = true) : s.KeepsParams t :=
  fun _ hy => Expr.name_eq_of_same_mapRefs (a := .func s) (b := .func t) hsame hrenamed hy

/-- Under the same names in the same positions, a type parameter stands opposite a type
parameter. -/
theorem Signature.paramsApart_of_paramNames
    (hnames : Fields.paramNames s.typeParams = Fields.paramNames t.typeParams)
    (hsame : s.same t = true) : Signature.ParamsApart scope scope' s t := by
  have hdeclared : Fields.declaredNames s.typeParams = Fields.declaredNames t.typeParams := by
    rw [Fields.declaredNames_eq_paramNames, hnames, Fields.declaredNames_eq_paramNames]
  intro x y hopposite
  have hname : x.name = y.name :=
    Ident.name_eq_of_same (hopposite.same (a := .func s) (b := .func t) hsame)
  rw [hname, hdeclared]
  exact ⟨fun hx hy => absurd hx hy, fun hy hx => absurd hy hx⟩

end Params

/-- **Names of type parameters.**  Take a plain function that two packages declare once.  If its
type parameters have the same names, position by position, then nothing is reported of it exactly
when its signatures are the same up to type parameters.  In general, where they are the same up to
type parameters, nothing is reported exactly when every type parameter referred to keeps its name;
and where nothing is reported, they are the same up to type parameters exactly when this is so and
no type parameter stands opposite a declaration of the package. -/
theorem unreported_iff_sameUpToParams {p q : Package} {f g : FuncDecl}
    (hf : p.resolve.DeclaresOnce (.func f)) (hg : q.resolve.DeclaresOnce (.func g))
    (hplain : f.recv = none) (hplain' : g.recv = none) (hname : g.name.name = f.name.name) :
    (Fields.paramNames f.sig.typeParams = Fields.paramNames g.sig.typeParams →
      (Unreported p.resolve q.resolve f g ↔ f.sig.SameUpToParams p.scope q.scope g.sig)) ∧
    (f.sig.SameUpToParams p.scope q.scope g.sig →
      (Unreported p.resolve q.resolve f g ↔ f.sig.KeepsParams g.sig)) ∧
    (Unreported p.resolve q.resolve f g →
      (f.sig.SameUpToParams p.scope q.scope g.sig ↔
        f.sig.KeepsParams g.sig ∧ f.sig.ParamsApart p.scope q.scope g.sig)) := by
  have hiff := unreported_iff hf hg hplain hplain' hname
  refine ⟨?_, ?_, ?_⟩
  · intro hnames
    have hkeeps : f.sig.KeepsParams g.sig :=
      fun y _ => congrArg Ident.name (Ident.renamed_of_paramNames hnames.symm y)
    rw [hiff, Signature.SameUpToParams, hkeeps.same_withParamsOf]
    exact ⟨fun hsame => ⟨hsame, Signature.paramsApart_of_paramNames hnames hsame⟩, And.left⟩
  · rintro ⟨hrenamed, -⟩
    rw [hiff]
    constructor
    · exact fun hsame => Signature.keepsParams_of_same hsame hrenamed
    · exact fun hkeeps => hkeeps.same_withParamsOf ▸ hrenamed
  · intro hunreported
    have hsame := hiff.mp hunreported
    constructor
    · rintro ⟨hrenamed, hapart⟩
      exact ⟨Signature.keepsParams_of_same hsame hrenamed, hapart⟩
    · rintro ⟨hkeeps, hapart⟩
      exact ⟨hkeeps.same_withParamsOf.trans hsame, hapart⟩

/-- A function over maps with two type parameters, and a name for its parameter. -/
def keysFunc (param : String) : FuncDecl :=
  ⟨none, ⟨"Keys", some ⟨.function, "Keys", none⟩⟩,
    ⟨[⟨[⟨"K", none⟩], .ident ⟨"comparable", none⟩, none⟩,
        ⟨[⟨"V", none⟩], .ident ⟨"any", none⟩, none⟩],
      [⟨[⟨param, none⟩], .map (.ident ⟨"K", none⟩) (.ident ⟨"V", none⟩), none⟩],
      [⟨[], .slice (.ident ⟨"K", none⟩), none⟩]⟩, ⟨"keys.go", 3, 1⟩⟩

/-- A package with that function. -/
def keysRelease (param : String) : Package :=
  ⟨"keys", [⟨"keys.go", "keys", [.func (keysFunc param)]⟩]⟩

/-- Another name for a parameter is not reported, and the signatures are the same. -/
theorem keysRelease_unreported :
    (keysRelease "m").resolve.DeclaresOnce (.func (keysFunc "m")) ∧
    (keysRelease "table").resolve.DeclaresOnce (.func (keysFunc "table")) ∧
    Unreported (keysRelease "m").resolve (keysRelease "table").resolve (keysFunc "m")
      (keysFunc "table") ∧
    (keysFunc "m").sig.SameUpToParams (keysRelease "m").scope (keysRelease "table").scope
      (keysFunc "table").sig := by
  have hprevious : (keysRelease "m").resolve.DeclaresOnce (.func (keysFunc "m")) :=
    ⟨List.mem_singleton_self _, by decide +kernel⟩
  have hlatest : (keysRelease "table").resolve.DeclaresOnce (.func (keysFunc "table")) :=
    ⟨List.mem_singleton_self _, by decide +kernel⟩
  have hunreported := (unreported_iff hprevious hlatest rfl rfl rfl).mpr rfl
  obtain ⟨hsame, -, -⟩ := unreported_iff_sameUpToParams hprevious hlatest rfl rfl rfl
  exact ⟨hprevious, hlatest, hunreported, (hsame rfl).mp hunreported⟩

/-- A function that returns its argument, with a name for its type parameter. -/
def echoFunc (typeParam : String) : FuncDecl :=
  ⟨none, ⟨"Echo", some ⟨.function, "Echo", none⟩⟩,
    ⟨[⟨[⟨typeParam, none⟩], .ident ⟨"any", none⟩, none⟩],
      [⟨[⟨"x", none⟩], .ident ⟨typeParam, none⟩, none⟩],
      [⟨[], .ident ⟨typeParam, none⟩, none⟩]⟩, ⟨"echo.go", 3, 1⟩⟩

/-- A package with that function. -/
def echoRelease (typeParam : String) : Package :=
  ⟨"echo", [⟨"echo.go", "echo", [.func (echoFunc typeParam)]⟩]⟩

/-- A generic function whose parameter is written `T`, with what that stands for. -/
def castFunc (typeParam : String) (binding : Option Binding) : FuncDecl :=
  ⟨none, ⟨"Cast", some ⟨.function, "Cast", none⟩⟩,
    ⟨[⟨[⟨typeParam, none⟩], .ident ⟨"any", none⟩, none⟩],
      [⟨[⟨"x", none⟩], .ident ⟨"T", binding⟩, none⟩], []⟩, ⟨"cast.go", 5, 1⟩⟩

/-- A package with that function and a type `T`. -/
def castRelease (typeParam : String) : Package :=
  ⟨"cast", [⟨"cast.go", "cast",
    [.type ⟨⟨"T", none⟩, [], false, .ident ⟨"int", none⟩, ⟨"cast.go", 3, 6⟩⟩,
      .func (castFunc typeParam none)]⟩]⟩

/-- A type parameter under another name is reported although nothing else has changed.  And if a
parameter of the type parameter's type becomes one of a type of the package, this is not reported as
long as the type parameter had the name of that type. -/
theorem type_parameters_by_spelling :
    ((echoRelease "T").resolve.DeclaresOnce (.func (echoFunc "T")) ∧
      (echoRelease "E").resolve.DeclaresOnce (.func (echoFunc "E")) ∧
      (echoRelease "T").scope = (echoRelease "E").scope ∧
      (echoFunc "T").sig.SameUpToParams (echoRelease "T").scope (echoRelease "E").scope
        (echoFunc "E").sig ∧
      ¬ Unreported (echoRelease "T").resolve (echoRelease "E").resolve (echoFunc "T")
        (echoFunc "E")) ∧
    ((castRelease "T").resolve.DeclaresOnce (.func (castFunc "T" none)) ∧
      (castRelease "U").resolve.DeclaresOnce (.func (castFunc "U" (some ⟨.type, "T", none⟩))) ∧
      (castRelease "T").scope = (castRelease "U").scope ∧
      ¬ (castFunc "T" none).sig.SameUpToParams (castRelease "T").scope (castRelease "U").scope
        (castFunc "U" (some ⟨.type, "T", none⟩)).sig ∧
      Unreported (castRelease "T").resolve (castRelease "U").resolve (castFunc "T" none)
        (castFunc "U" (some ⟨.type, "T", none⟩))) := by
  have hecho : (echoRelease "T").resolve.DeclaresOnce (.func (echoFunc "T")) :=
    ⟨List.mem_singleton_self _, by decide +kernel⟩
  have hecho' : (echoRelease "E").resolve.DeclaresOnce (.func (echoFunc "E")) :=
    ⟨List.mem_singleton_self _, by decide +kernel⟩
  have hcast : (castRelease "T").resolve.DeclaresOnce (.func (castFunc "T" none)) :=
    ⟨List.mem_cons_of_mem _ (List.mem_singleton_self _), by decide +kernel⟩
  have hcast' : (castRelease "U").resolve.DeclaresOnce
      (.func (castFunc "U" (some ⟨.type, "T", none⟩))) :=
    ⟨List.mem_cons_of_mem _ (List.mem_singleton_self _), by decide +kernel⟩
  refine ⟨⟨hecho, hecho', by decide +kernel, ⟨rfl, ?_⟩, ?_⟩,
    ⟨hcast, hcast', by decide +kernel, ?_, ?_⟩⟩
  · -- The signatures refer to nothing that the packages declare.
    have hfree : ∀ x ∈ (Expr.func (echoFunc "T").sig).idents,
        (echoRelease "T").scope.lookup x.name = none := by decide +kernel
    have hfree' : ∀ y ∈ (Expr.func (echoFunc "E").sig).idents,
        (echoRelease "E").scope.lookup y.name = none := by decide +kernel
    intro x y hopposite
    obtain ⟨hx, hy⟩ := hopposite.compares
    constructor
    · intro _ _
      exact hfree' y (Expr.mem_idents_of_compares hy (List.mem_singleton_self y))
    · intro _ _
      exact hfree x (Expr.mem_idents_of_compares hx (List.mem_singleton_self x))
  · rw [unreported_iff hecho hecho' rfl rfl rfl]
    decide +kernel
  · rintro ⟨-, hapart⟩
    have hopposite : Expr.Opposite (.func (castFunc "T" none).sig)
        (.func (castFunc "U" (some ⟨.type, "T", none⟩)).sig) (.ident ⟨"T", none⟩)
        (.ident ⟨"T", some ⟨.type, "T", none⟩⟩) :=
      .part (List.mem_cons_of_mem _ List.mem_cons_self) (.root _ _)
    have hlookup := (hapart _ _ hopposite).1 (by decide +kernel) (by decide +kernel)
    exact absurd hlookup (by decide +kernel)
  · rw [unreported_iff hcast hcast' rfl rfl rfl]
    decide +kernel

end GoSurface
