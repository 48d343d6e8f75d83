/-
# The spelling of a package does not matter

How fields are grouped, and what parameters, results and receivers are called, has no influence on
a comparison beyond the texts that it quotes.  Both sides of a comparison can be put into plain
spelling without a change to its outline, and plain spelling goes along with resolving.

* `File.plain`, `Package.plain`: files and packages in plain spelling;
* `Package.resolve_plain`: resolving a plain package;
* `Change.outline`: a change without the texts that it quotes;
* `outline_comparePackages_of_plain_eq`: files with the same plain spelling compare alike.
-/
import GoSurface.Proofs.Binding
import GoSurface.Proofs.Following
import GoSurface.Proofs.Plain

namespace GoSurface

/-! ## Declarations -/

def FuncDecl.plain (f : FuncDecl) : FuncDecl :=
  { f with recv := f.recv.map (Fields.plain false), sig := f.sig.plain }

def TypeSpec.plain (t : TypeSpec) : TypeSpec :=
  { t with typeParams := Fields.plain true t.typeParams, type := t.type.plain }

def ValueSpec.plain (v : ValueSpec) : ValueSpec :=
  { v with type := v.type.map Expr.plain, values := v.values.map Expr.plain }

def Decl.plain : Decl → Decl
  | .func f => .func f.plain
  | .type t => .type t.plain
  | .value v => .value v.plain

def File.plain (f : File) : File :=
  { f with decls := f.decls.map Decl.plain }

def Package.plain (p : Package) : Package :=
  { p with files := p.files.map File.plain }

theorem Package.decls_plain (p : Package) : p.plain.decls = p.decls.map Decl.plain := by
  rw [Package.decls, Package.decls, List.map_flatMap, Package.plain, List.flatMap_map]
  rfl

/-! ## Resolving -/

/-- The names that a field list declares are those of its slots. -/
theorem Fields.declaredNames_eq (fs : Fields) :
    Fields.declaredNames fs = (Fields.labels fs).filterMap (Option.map Ident.name) := by
  induction fs with
  | nil => rfl
  | cons f fs ih =>
    have hfield : f.names.map Ident.name =
        (f.slots.map Slot.name).filterMap (Option.map Ident.name) := by
      obtain ⟨_ | ⟨x, xs⟩, t, tag⟩ := f
      · rfl
      · simp [Field.slots, slotNames, List.filterMap_map, Function.comp_def]
    rw [Fields.declaredNames, List.flatMap_cons, ← Fields.declaredNames, ih, hfield,
      Fields.labels, Fields.labels, Fields.slots_cons, List.map_append, List.filterMap_append]

@[simp] theorem Fields.declaredNames_plain (fs : Fields) :
    Fields.declaredNames (Fields.plain true fs) = Fields.declaredNames fs := by
  rw [Fields.declaredNames_eq, Fields.declaredNames_eq, Fields.labels_plain]

/-- The names that the types of receivers give to type arguments, slot by slot. -/
theorem mem_receiverParams_iff {recv : Fields} {name : String} :
    name ∈ recv.flatMap (·.type.receiverParams) ↔
      ∃ t ∈ Fields.slotTypes recv, name ∈ t.receiverParams := by
  simp only [List.mem_flatMap, Fields.mem_slotTypes]
  constructor
  · rintro ⟨f, hf, hname⟩
    exact ⟨f.type, ⟨f, hf, rfl⟩, hname⟩
  · rintro ⟨_, ⟨f, hf, rfl⟩, hname⟩
    exact ⟨f, hf, hname⟩

/-- A function hides the same names in plain spelling. -/
theorem FuncDecl.mem_hidden_plain {f : FuncDecl} {name : String} :
    name ∈ f.plain.hidden ↔ name ∈ f.hidden := by
  have hparams : Fields.declaredNames f.plain.sig.typeParams =
      Fields.declaredNames f.sig.typeParams := by
    obtain ⟨recv, x, ⟨ts, ps, rs⟩, position⟩ := f
    exact Fields.declaredNames_plain ts
  rw [FuncDecl.hidden, FuncDecl.hidden, List.mem_append, List.mem_append, hparams]
  refine or_congr_right ?_
  rw [FuncDecl.plain]
  cases f.recv with
  | none => rfl
  | some recv =>
    simp only [Option.map_some, mem_receiverParams_iff, Fields.slotTypes_plain, List.mem_map,
      exists_exists_and_eq_and, Expr.receiverParams_plain]

/-- Binding depends only on which names are hidden. -/
theorem Scope.bind_congr {hidden hidden' : List String}
    (h : ∀ name, name ∈ hidden ↔ name ∈ hidden') (scope : Scope) :
    scope.bind hidden = scope.bind hidden' := by
  funext x
  simp only [Scope.bind, h]

theorem Fields.mapRefs_plain_eq (f : Ident → Ident) (named : Bool) (fs : Fields) :
    Fields.mapRefs f (Fields.plain named fs) = Fields.plain named (Fields.mapRefs f fs) :=
  Fields.mapRefs_plain f named fun t _ => Expr.mapRefs_plain f t

/-- Resolving goes along with plain spelling, declaration by declaration. -/
theorem Decl.resolve_plain (scope : Scope) (d : Decl) :
    d.plain.resolve scope = (d.resolve scope).plain := by
  cases d with
  | func f =>
    have hbind : scope.bind f.plain.hidden = scope.bind f.hidden :=
      Scope.bind_congr (fun _ => FuncDecl.mem_hidden_plain) scope
    simp only [Decl.plain, Decl.resolve, FuncDecl.resolve, hbind]
    simp only [FuncDecl.plain, Option.map_map, Function.comp_def, Fields.mapRefs_plain_eq,
      Signature.mapRefs_plain _ fun t _ => Expr.mapRefs_plain _ t]
  | type t =>
    simp only [Decl.plain, Decl.resolve, TypeSpec.resolve, TypeSpec.plain,
      Fields.declaredNames_plain, Fields.mapRefs_plain_eq, Expr.mapRefs_plain]
  | value v =>
    simp only [Decl.plain, Decl.resolve, ValueSpec.resolve, ValueSpec.plain, Option.map_map,
      List.map_map, Function.comp_def, Expr.mapRefs_plain]
    rfl

/-- Plain spelling keeps what the names of a package stand for. -/
theorem Package.scope_plain (p : Package) : p.plain.scope = p.scope := by
  have hdeclares : ∀ d : Decl, d.plain.declares = d.declares := by
    rintro (⟨_ | recv, x, sig, position⟩ | t | v) <;> rfl
  rw [Package.scope, Package.scope, Package.decls_plain, List.flatMap_map]
  simp only [hdeclares]

/-- **Resolving goes along with plain spelling.** -/
theorem Package.resolve_plain (p : Package) : p.plain.resolve = p.resolve.plain := by
  rw [Package.resolve, Package.scope_plain]
  simp only [Package.plain, Package.resolve, File.plain, List.map_map, Function.comp_def,
    Decl.resolve_plain]

/-! ## Following names -/

/-- What a declaration stands for, in plain spelling. -/
def Resolved.plain (r : Resolved) : Resolved :=
  ⟨Fields.plain true r.typeParams, r.type.plain, r.viaName⟩

theorem Package.types_plain (p : Package) : p.plain.types = p.types.map TypeSpec.plain := by
  rw [Package.types, Package.types, Package.decls_plain]
  exact filterMap_map_comm (fun d => by cases d <;> rfl) p.decls

/-- A plain declaration stands for the same type, in plain spelling. -/
theorem Package.follow_plain (p : Package) (t : TypeSpec) :
    p.plain.follow t.plain = (p.follow t).plain := by
  have hrewrites : p.Rewrites p.plain TypeSpec.plain (Fields.plain true) Expr.plain :=
    ⟨p.types_plain, fun _ => rfl, fun _ => rfl, fun _ => rfl, Expr.namedType?_plain⟩
  exact hrewrites.follow_eq t

/-! ## Differences of declarations -/

/-- Constants and variables are compared alike. -/
theorem ValueSpec.same_plain (v w : ValueSpec) : v.plain.same w.plain = v.same w := by
  have htype : Expr.sameOption v.plain.type w.plain.type = Expr.sameOption v.type w.type := by
    simp only [ValueSpec.plain]
    cases v.type <;> cases w.type <;> simp [Expr.sameOption]
  have hvalues : Expr.sameList v.plain.values w.plain.values =
      Expr.sameList v.values w.values := by
    rw [Bool.eq_iff_iff, Expr.sameList_iff, Expr.sameList_iff]
    exact forall₂_map_congr fun x _ y _ => by rw [Expr.same_plain]
  rw [ValueSpec.same, ValueSpec.same, htype, hvalues]
  rfl

/-- Functions differ alike. -/
theorem FuncDecl.difference?_plain (f g : FuncDecl) :
    f.plain.difference? g.plain = f.difference? g := by
  have hrecv : sameReceivers f.plain.recv g.plain.recv = sameReceivers f.recv g.recv := by
    simp only [FuncDecl.plain]
    cases f.recv <;> cases g.recv <;> simp [sameReceivers, Fields.same_ignored_plain]
  have hsig : f.plain.sig.same g.plain.sig = f.sig.same g.sig := Signature.same_plain _ _
  rw [FuncDecl.difference?, FuncDecl.difference?, hrecv, hsig]

/-- Types differ alike. -/
theorem TypeSpec.difference?_plain (p q : Package) (t u : TypeSpec) :
    t.plain.difference? p.plain u.plain q.plain = t.difference? p u q := by
  simp only [TypeSpec.difference?, Package.follow_plain, Resolved.plain,
    Fields.same_ignored_plain, Expr.exportedOnly_plain, visibleDifference?_plain]
  rfl

/-- A method has the same base type in plain spelling. -/
theorem FuncDecl.key_plain (f : FuncDecl) : f.plain.key = f.key := by
  obtain ⟨_ | _ | ⟨⟨_ | ⟨x, xs⟩, t, tag⟩, rest⟩, name, sig, position⟩ := f
  · rfl
  · rfl
  · exact congrArg (Prod.mk _) (Expr.baseTypeName_plain t)
  · exact congrArg (Prod.mk _) (Expr.baseTypeName_plain t)

/-! ## Outlines -/

/-- The name and the place of a quotation. -/
def Snippet.heading (s : Snippet) : String × Position :=
  (s.name, s.position)

/-- A change without the texts that it quotes. -/
def Change.outline (c : Change) :
    Severity × Reason × Option (String × Position) × Option (String × Position) :=
  (c.severity, c.reason, c.previous.map Snippet.heading, c.latest.map Snippet.heading)

@[simp] theorem Change.outline_added (s : Severity) (r : Reason) (l : Snippet) :
    (Change.added s r l).outline = (s, r, none, some l.heading) := rfl

@[simp] theorem Change.outline_removed (s : Severity) (r : Reason) (p : Snippet) :
    (Change.removed s r p).outline = (s, r, some p.heading, none) := rfl

@[simp] theorem Change.outline_changed (s : Severity) (r : Reason) (p l : Snippet) :
    (Change.changed s r p l).outline = (s, r, some p.heading, some l.heading) := rfl

@[simp] theorem ValueSpec.heading_plain (v : ValueSpec) :
    v.plain.snippet.heading = v.snippet.heading := by
  simp only [Snippet.heading, ValueSpec.snippet, ValueSpec.plain]

@[simp] theorem FuncDecl.heading_plain (f : FuncDecl) :
    f.plain.snippet.heading = f.snippet.heading := by
  simp only [Snippet.heading, FuncDecl.snippet, FuncDecl.plain]

@[simp] theorem TypeSpec.heading_plain (t : TypeSpec) :
    t.plain.snippet.heading = t.snippet.heading := by
  simp only [Snippet.heading, TypeSpec.snippet, TypeSpec.plain]

/-- Replacing entries by others with their keys keeps what is seen of the changes, if it keeps that
for each pair. -/
theorem map_pairByKey_map {α κ γ : Type} [DecidableEq κ] {key : α → κ} {f : α → α}
    {change change' : Pair α → Option Change} {view : Change → γ} (hkey : ∀ a, key (f a) = key a)
    (h : ∀ x : Pair α, (change (x.map f)).map view = (change' x).map view) (ps ls : List α) :
    ((pairByKey key (ps.map f) (ls.map f)).filterMap change).map view =
      ((pairByKey key ps ls).filterMap change').map view := by
  rw [pairByKey_map hkey, List.filterMap_map, List.map_filterMap, List.map_filterMap]
  congr 1
  funext x
  exact h x

/-- The outline of a change to constants or variables does not depend on the spelling. -/
theorem outline_valueChange_plain (x : Pair ValueSpec) :
    (valueChange (x.map ValueSpec.plain)).map Change.outline =
      (valueChange x).map Change.outline := by
  have hkind : ∀ v : ValueSpec, v.plain.kind = v.kind := fun _ => rfl
  cases x with
  | removed v => simp [Pair.map, valueChange, hkind]
  | added v => simp [Pair.map, valueChange, hkind]
  | both v w =>
    simp only [Pair.map, valueChange, ValueSpec.same_plain, hkind]
    split <;> simp

/-- The outline of a change to a function does not depend on the spelling. -/
theorem outline_funcChange_plain (x : Pair FuncDecl) :
    (funcChange (x.map FuncDecl.plain)).map Change.outline =
      (funcChange x).map Change.outline := by
  cases x with
  | removed f =>
    have hhidden : f.plain.isHidden = f.isHidden := by
      rw [← FuncDecl.isHiddenKey_key, ← FuncDecl.isHiddenKey_key, FuncDecl.key_plain]
    simp only [Pair.map, funcChange, hhidden]
    split <;> simp
  | added f => simp [Pair.map, funcChange]
  | both f g =>
    simp only [Pair.map, funcChange, FuncDecl.difference?_plain]
    cases f.difference? g <;> simp

/-- The outline of a change to a type does not depend on the spelling. -/
theorem outline_typeChange_plain (P Q : Option Package) (x : Pair TypeSpec) :
    (typeChange (P.map Package.plain) (Q.map Package.plain) (x.map TypeSpec.plain)).map
        Change.outline = (typeChange P Q x).map Change.outline := by
  cases x with
  | removed t => simp [Pair.map, typeChange]
  | added t => simp [Pair.map, typeChange]
  | both t u =>
    cases P with
    | none => rfl
    | some p =>
      cases Q with
      | none => rfl
      | some q =>
        simp only [Option.map_some, Pair.map, typeChange, TypeSpec.difference?_plain]
        cases t.difference? p u q <;> simp

/-! ## Packages -/

/-- Plain spelling keeps names, so it keeps what is exported. -/
theorem Package.surface_plain (p : Package) : p.plain.surface = p.surface.map Decl.plain := by
  rw [Package.surface, Package.decls_plain, List.filter_map, Package.surface]
  congr 2
  funext d
  cases d <;> rfl

theorem exportedValues_plain (P : Option Package) :
    exportedValues (P.map Package.plain) = (exportedValues P).map ValueSpec.plain := by
  cases P with
  | none => rfl
  | some p => exact Decl.isKind_value.exported_map p.surface_plain fun d => by cases d <;> rfl

theorem exportedFuncs_plain (P : Option Package) :
    exportedFuncs (P.map Package.plain) = (exportedFuncs P).map FuncDecl.plain := by
  cases P with
  | none => rfl
  | some p => exact Decl.isKind_func.exported_map p.surface_plain fun d => by cases d <;> rfl

theorem exportedTypes_plain (P : Option Package) :
    exportedTypes (P.map Package.plain) = (exportedTypes P).map TypeSpec.plain := by
  cases P with
  | none => rfl
  | some p => exact Decl.isKind_type.exported_map p.surface_plain fun d => by cases d <;> rfl

theorem Package.snippet_plain (p : Package) : p.plain.snippet = p.snippet := by
  obtain ⟨name, _ | ⟨f, fs⟩⟩ := p <;> rfl

/-- **Plain spelling on both sides keeps the outline of a comparison.** -/
theorem outline_comparePackages_plain (P Q : Option Package) :
    (comparePackages (P.map Package.plain) (Q.map Package.plain)).map Change.outline =
      (comparePackages P Q).map Change.outline := by
  have hpresence : diffPresence (P.map Package.plain) (Q.map Package.plain) =
      diffPresence P Q := by
    cases P <;> cases Q <;> simp [diffPresence, Package.snippet_plain]
  have hvalue : ∀ v : ValueSpec, v.plain.key = v.key := fun _ => rfl
  have htype : ∀ t : TypeSpec, t.plain.key = t.key := fun _ => rfl
  simp only [comparePackages, List.map_append, hpresence]
  congr 1
  · congr 1
    · congr 1
      rw [diffValues, exportedValues_plain, exportedValues_plain]
      exact map_pairByKey_map hvalue outline_valueChange_plain _ _
    · rw [diffFunctions, exportedFuncs_plain, exportedFuncs_plain]
      exact map_pairByKey_map FuncDecl.key_plain outline_funcChange_plain _ _
  · rw [diffTypes, exportedTypes_plain, exportedTypes_plain]
    exact map_pairByKey_map htype (outline_typeChange_plain P Q) _ _

/-- **The spelling does not matter.**  Files with the same plain spelling differ only in the names
of parameters, results and receivers and in the grouping of fields.  Compared with any package, in
either direction, they give the same changes, apart from the texts that are quoted. -/
theorem outline_comparePackages_of_plain_eq (name : String) (F F' : List File)
    (h : F.map File.plain = F'.map File.plain) (Q : Option Package) :
    (comparePackages (some (Package.resolve ⟨name, F⟩)) Q).map Change.outline =
        (comparePackages (some (Package.resolve ⟨name, F'⟩)) Q).map Change.outline ∧
      (comparePackages Q (some (Package.resolve ⟨name, F⟩))).map Change.outline =
        (comparePackages Q (some (Package.resolve ⟨name, F'⟩))).map Change.outline := by
  have hplain : (Package.resolve ⟨name, F⟩).plain = (Package.resolve ⟨name, F'⟩).plain := by
    rw [← Package.resolve_plain, ← Package.resolve_plain, Package.plain, Package.plain, h]
  constructor
  · rw [← outline_comparePackages_plain, ← outline_comparePackages_plain (some _) Q,
      Option.map_some, Option.map_some, hplain]
  · rw [← outline_comparePackages_plain, ← outline_comparePackages_plain Q (some _),
      Option.map_some, Option.map_some, hplain]

/-- A file with a struct of two numbers and a method on it, given its fields, its receivers and its
parameters. -/
def pointFile (fields recv params : Fields) : File :=
  ⟨"point.go", "point",
    [.type ⟨⟨"Point", none⟩, [], false, .struct fields, ⟨"point.go", 3, 6⟩⟩,
     .func ⟨some recv, ⟨"Move", none⟩, ⟨[], params, []⟩, ⟨"point.go", 5, 1⟩⟩]⟩

/-- Names share their types, and everything has a name. -/
def groupedPoint : File :=
  pointFile [⟨[⟨"X", none⟩, ⟨"Y", none⟩], .ident ⟨"int", none⟩, none⟩]
    [⟨[⟨"p", none⟩], .pointer (.ident ⟨"Point", none⟩), none⟩]
    [⟨[⟨"dx", none⟩, ⟨"dy", none⟩], .ident ⟨"int", none⟩, none⟩]

/-- Every slot stands alone, and names are left out where they do not count. -/
def spreadPoint : File :=
  pointFile [⟨[⟨"X", none⟩], .ident ⟨"int", none⟩, none⟩, ⟨[⟨"Y", none⟩], .ident ⟨"int", none⟩, none⟩]
    [⟨[], .pointer (.ident ⟨"Point", none⟩), none⟩]
    [⟨[], .ident ⟨"int", none⟩, none⟩, ⟨[], .ident ⟨"int", none⟩, none⟩]

/-- The two spellings of a file lose the same declarations when the package is emptied. -/
theorem outline_groupedPoint_eq_spreadPoint :
    [groupedPoint].map File.plain = [spreadPoint].map File.plain ∧
    (comparePackages (some (Package.resolve ⟨"point", [groupedPoint]⟩))
        (some ⟨"point", []⟩)).map Change.outline =
      (comparePackages (some (Package.resolve ⟨"point", [spreadPoint]⟩))
        (some ⟨"point", []⟩)).map Change.outline :=
  ⟨rfl, (outline_comparePackages_of_plain_eq "point" [groupedPoint] [spreadPoint] rfl _).1⟩

end GoSurface
