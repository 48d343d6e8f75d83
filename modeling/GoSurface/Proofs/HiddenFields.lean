/-
# Hidden fields of structs

A hidden field of a struct has an unexported name, or is embedded and its type has no exported base
name.  Such fields may come, go, move and change their types, in every struct that filtering gets
to, and no report on the types of a package tells.  What a report depends on is the outside of each
declaration, and an edit of hidden fields keeps it.

* `Expr.HiddenEdit`: one hidden field more, at any depth;
* `Expr.EditedUnseen`, `File.EditedUnseen`: any number of such edits, either way;
* `Expr.outside`: the visible part of a type, in plain spelling;
* `Package.outside_resolve_eq`: edits of hidden fields keep the outside of a package;
* `headline_diffTypes_outside`: a report on types depends on the outsides alone;
* `diffTypes_of_editedUnseen`: edits of hidden fields do not show in a report.
-/
import GoSurface.Proofs.Binding
import GoSurface.Proofs.Filtering
import GoSurface.Proofs.Spelling
import Mathlib.Logic.Relation

namespace GoSurface

/-! ## Edits -/

/-- The second type has one hidden field more than the first, in a struct at its root or below
fields, pointers, slices, parentheses, elements of arrays and channels, and keys and values of maps.
The fields of a struct count slot by slot, so that a name in a group is a field of its own. -/
inductive Expr.HiddenEdit : Expr → Expr → Prop
  | slot {fs gs : Fields} {before after : List Slot} {s : Slot} (hs : s.isVisible = false)
      (hfs : Fields.slots fs = before ++ after) (hgs : Fields.slots gs = before ++ s :: after) :
      HiddenEdit (.struct fs) (.struct gs)
  | field {fs gs : Fields} {before after : List Slot} {s : Slot} {e : Expr}
      (h : HiddenEdit s.type e) (hfs : Fields.slots fs = before ++ s :: after)
      (hgs : Fields.slots gs = before ++ { s with type := e } :: after) :
      HiddenEdit (.struct fs) (.struct gs)
  | pointer {a b : Expr} (h : HiddenEdit a b) : HiddenEdit (.pointer a) (.pointer b)
  | slice {a b : Expr} (h : HiddenEdit a b) : HiddenEdit (.slice a) (.slice b)
  | paren {a b : Expr} (h : HiddenEdit a b) : HiddenEdit (.paren a) (.paren b)
  | array (n : Expr) {a b : Expr} (h : HiddenEdit a b) : HiddenEdit (.array n a) (.array n b)
  | mapKey {a b : Expr} (v : Expr) (h : HiddenEdit a b) : HiddenEdit (.map a v) (.map b v)
  | mapValue (k : Expr) {a b : Expr} (h : HiddenEdit a b) : HiddenEdit (.map k a) (.map k b)
  | chan (d : ChanDir) {a b : Expr} (h : HiddenEdit a b) : HiddenEdit (.chan d a) (.chan d b)

/-- The types differ by hidden fields that were added or dropped, one after the other.  A field that
moves or changes its type is dropped and added. -/
def Expr.EditedUnseen : Expr → Expr → Prop :=
  Relation.EqvGen Expr.HiddenEdit

/-- The declarations differ in their places, and a type in hidden fields too. -/
inductive Decl.EditedUnseen : Decl → Decl → Prop
  | func (f : FuncDecl) (position : Position) :
      EditedUnseen (.func f) (.func { f with position := position })
  | value (v : ValueSpec) (position : Position) :
      EditedUnseen (.value v) (.value { v with position := position })
  | type (t : TypeSpec) {e : Expr} (position : Position) (h : t.type.EditedUnseen e) :
      EditedUnseen (.type t) (.type { t with type := e, position := position })

/-- The files differ in hidden fields and in the places of their declarations. -/
structure File.EditedUnseen (f g : File) : Prop where
  name_eq : f.name = g.name
  package_eq : f.package = g.package
  decls : List.Forall₂ Decl.EditedUnseen f.decls g.decls

/-! ## What edits amount to -/

/-- Grouping the slots of a struct otherwise is no edit that can be seen. -/
theorem Expr.editedUnseen_of_slots_eq {fs gs : Fields} (h : Fields.slots fs = Fields.slots gs) :
    (Expr.struct fs).EditedUnseen (.struct gs) := by
  -- Both structs lead to the same one with a blank field in front.
  let blank : Slot := ⟨some ⟨"_", none⟩, .struct [], none⟩
  have hblank : ∀ hs : Fields, Fields.slots hs = Fields.slots gs →
      (Expr.struct hs).HiddenEdit (.struct ((blank :: Fields.slots gs).map Slot.field)) :=
    fun hs hslots =>
      @Expr.HiddenEdit.slot hs _ [] (Fields.slots gs) blank rfl hslots (Fields.slots_map_field _)
  exact .trans _ _ _ (.rel _ _ (hblank fs h)) (.symm _ _ (.rel _ _ (hblank gs rfl)))

/-- The hidden slots of a struct can be dropped one by one. -/
theorem Expr.editedUnseen_filter (before ss : List Slot) :
    (Expr.struct ((before ++ ss).map Slot.field)).EditedUnseen
      (.struct ((before ++ ss.filter Slot.isVisible).map Slot.field)) := by
  induction ss generalizing before with
  | nil => exact .refl _
  | cons s ss ih =>
    cases hs : s.isVisible with
    | true =>
      have hrest := ih (before ++ [s])
      rw [← List.append_cons, ← List.append_cons] at hrest
      rw [List.filter_cons_of_pos hs]
      exact hrest
    | false =>
      have hdrop : (Expr.struct ((before ++ ss).map Slot.field)).HiddenEdit
          (.struct ((before ++ s :: ss).map Slot.field)) :=
        .slot hs (Fields.slots_map_field _) (Fields.slots_map_field _)
      rw [List.filter_cons_of_neg (by simp [hs])]
      exact .trans _ _ _ (.symm _ _ (.rel _ _ hdrop)) (ih before)

/-- **Structs with the same visible slots** differ by edits that cannot be seen, however their
hidden slots are spread between them. -/
theorem Expr.editedUnseen_of_visible_eq {fs gs : Fields}
    (h : (Fields.slots fs).filter Slot.isVisible = (Fields.slots gs).filter Slot.isVisible) :
    (Expr.struct fs).EditedUnseen (.struct gs) := by
  have hdrop : ∀ hs : Fields, (Expr.struct hs).EditedUnseen
      (.struct (((Fields.slots hs).filter Slot.isVisible).map Slot.field)) :=
    fun hs => .trans _ _ _ (editedUnseen_of_slots_eq (Fields.slots_map_field _).symm)
      (editedUnseen_filter [] (Fields.slots hs))
  have hgs := hdrop gs
  rw [← h] at hgs
  exact .trans _ _ _ (hdrop fs) (.symm _ _ hgs)

/-! ## The outside of a type -/

/-- What can be seen of a type, in plain spelling. -/
def Expr.outside (e : Expr) : Expr :=
  e.exportedOnly.plain

/-- The outside of a slot. -/
def Slot.outside (s : Slot) : Slot :=
  { s with type := s.type.outside }

/-- The outside of a struct has a field for each visible slot. -/
theorem Expr.outside_struct (fs : Fields) :
    (Expr.struct fs).outside =
      .struct ((((Fields.slots fs).filter Slot.isVisible).map Slot.outside).map Slot.field) := by
  rw [Expr.outside, Expr.exportedOnly, Expr.plain, Fields.plain_eq, Fields.slots_exportedOnly]
  simp only [List.map_map]
  rfl

/-- An edit keeps the name of the type behind pointers and parentheses. -/
theorem Expr.HiddenEdit.baseTypeName_eq {a b : Expr} (h : a.HiddenEdit b) :
    a.baseTypeName = b.baseTypeName := by
  induction h with
  | pointer _ ih | paren _ ih => exact ih
  | _ => rfl

/-- An edit in the type of a slot does not decide whether it is visible. -/
theorem Expr.HiddenEdit.isVisible_eq {s : Slot} {e : Expr} (h : s.type.HiddenEdit e) :
    Slot.isVisible { s with type := e } = s.isVisible := by
  obtain ⟨_ | x, t, tag⟩ := s
  · simp only [Slot.isVisible, Expr.hasExportedBase, h.baseTypeName_eq]
  · rfl

/-- **An edit keeps the outside of a type.** -/
theorem Expr.HiddenEdit.outside_eq {a b : Expr} (h : a.HiddenEdit b) : a.outside = b.outside := by
  induction h with
  | slot hs hfs hgs =>
    rw [Expr.outside_struct, Expr.outside_struct, hfs, hgs, List.filter_append, List.filter_append,
      List.filter_cons_of_neg (by simp [hs])]
  | @field fs gs before after s e h hfs hgs ih =>
    -- The slot is visible before the edit if it is so after it, and then has the same outside.
    have houtside : Slot.outside { s with type := e } = s.outside := by
      simp only [Slot.outside, ih]
    rw [Expr.outside_struct, Expr.outside_struct, hfs, hgs]
    simp only [List.filter_append, List.filter_cons, h.isVisible_eq]
    split <;> simp only [List.map_append, List.map_cons, houtside]
  | pointer _ ih | slice _ ih | paren _ ih | array _ _ ih | mapKey _ _ ih | mapValue _ _ ih
    | chan _ _ ih =>
    simp only [Expr.outside] at ih
    simp only [Expr.outside, Expr.exportedOnly, Expr.plain, ih]

/-- Edits keep the outside of a type. -/
theorem Expr.EditedUnseen.outside_eq {a b : Expr} (h : a.EditedUnseen b) :
    a.outside = b.outside := by
  induction h with
  | rel _ _ h => exact h.outside_eq
  | refl _ => rfl
  | symm _ _ _ ih => exact ih.symm
  | trans _ _ _ _ _ ih ih' => exact ih.trans ih'

theorem Expr.exportedOnly_outside (e : Expr) : e.outside.exportedOnly = e.exportedOnly.plain := by
  rw [Expr.outside, Expr.exportedOnly_plain, Expr.exportedOnly_exportedOnly]

theorem Expr.namedType?_outside (e : Expr) : e.outside.namedType? = e.namedType? := by
  cases e <;> rfl

/-! ## Resolving -/

/-- Replacing references by others of the same name keeps what is visible of a field, if this is so
for its type. -/
theorem Field.exportedOnly_mapRefs {f : Ident → Ident} (hf : ∀ x, (f x).name = x.name) {g : Field}
    (h : (g.type.mapRefs f).exportedOnly = g.type.exportedOnly.mapRefs f) :
    (g.mapRefs f).exportedOnly = Fields.mapRefs f g.exportedOnly := by
  obtain ⟨_ | ⟨x, xs⟩, t, tag⟩ := g
  · have hbase : (t.mapRefs f).hasExportedBase = t.hasExportedBase := by
      simp only [Expr.hasExportedBase, Expr.baseTypeName_mapRefs hf]
    simp only [Field.mapRefs, Field.exportedOnly, hbase, h]
    split <;> rfl
  · simp only [Field.mapRefs, Field.exportedOnly, h]
    split <;> rfl

/-- Replacing references by others of the same name keeps what is visible of a struct, if this is so
for its types. -/
theorem Fields.exportedOnly_mapRefs {f : Ident → Ident} (hf : ∀ x, (f x).name = x.name)
    {fs : Fields}
    (h : ∀ t ∈ Fields.slotTypes fs, (t.mapRefs f).exportedOnly = t.exportedOnly.mapRefs f) :
    Fields.exportedOnly (Fields.mapRefs f fs) = Fields.mapRefs f (Fields.exportedOnly fs) := by
  induction fs with
  | nil => rfl
  | cons g gs ih =>
    obtain ⟨hg, hgs⟩ := Fields.forall_slotTypes_cons.mp h
    rw [Fields.mapRefs, Fields.exportedOnly, Fields.exportedOnly, Field.exportedOnly_mapRefs hf hg,
      ih hgs]
    simp only [Fields.mapRefs_eq_map, List.map_append]

/-- Filtering goes along with replacing references by others of the same name. -/
theorem Expr.exportedOnly_mapRefs {f : Ident → Ident} (hf : ∀ x, (f x).name = x.name) (e : Expr) :
    (e.mapRefs f).exportedOnly = e.exportedOnly.mapRefs f := by
  induction e using Expr.childInduction with
  | step e ih =>
    cases e with
    | struct fs => simp only [Expr.mapRefs, Expr.exportedOnly, Fields.exportedOnly_mapRefs hf ih]
    | array | map =>
      simp only [Expr.children, Expr.parts, List.forall_mem_cons] at ih
      simp only [Expr.mapRefs, Expr.exportedOnly, ih.1, ih.2.1]
    | pointer | slice | paren | chan =>
      simp only [Expr.children, Expr.parts, List.forall_mem_singleton] at ih
      simp only [Expr.mapRefs, Expr.exportedOnly, ih]
    | _ => rfl

/-- A type declaration seen from outside, wherever it stands. -/
def TypeSpec.outside (t : TypeSpec) : TypeSpec :=
  { t with type := t.type.outside, position := ⟨"", 0, 0⟩ }

/-- Resolving goes along with the view from outside. -/
theorem TypeSpec.resolve_outside (scope : Scope) (t : TypeSpec) :
    t.outside.resolve scope = (t.resolve scope).outside := by
  have htype : t.type.outside.mapRefs (scope.bind (Fields.declaredNames t.typeParams)) =
      (t.type.mapRefs (scope.bind (Fields.declaredNames t.typeParams))).outside := by
    rw [Expr.outside, Expr.mapRefs_plain,
      ← Expr.exportedOnly_mapRefs (Scope.name_bind scope _), Expr.outside]
  simp only [TypeSpec.resolve, TypeSpec.outside, htype]

/-! ## Packages -/

/-- The types of a package seen from outside. -/
def Package.outside (p : Package) : Package :=
  ⟨p.name, [⟨"", p.name, p.types.map fun t => .type t.outside⟩]⟩

theorem Package.types_outside (p : Package) : p.outside.types = p.types.map TypeSpec.outside := by
  simp [Package.types, Package.decls, Package.outside, List.filterMap_map, Function.comp_def,
    Decl.type?]

/-- The declarations of edited files. -/
theorem Package.decls_of_editedUnseen (name : String) {F G : List File}
    (h : List.Forall₂ File.EditedUnseen F G) :
    List.Forall₂ Decl.EditedUnseen (Package.decls ⟨name, F⟩) (Package.decls ⟨name, G⟩) := by
  induction h with
  | nil => exact .nil
  | cons hf _ ih => exact List.rel_append hf.decls ih

/-- Edits of hidden fields keep what names stand for. -/
theorem Package.scope_eq_of_editedUnseen (name : String) {F G : List File}
    (h : List.Forall₂ File.EditedUnseen F G) :
    Package.scope ⟨name, F⟩ = Package.scope ⟨name, G⟩ := by
  have hdeclares : (Package.decls ⟨name, F⟩).map Decl.declares =
      (Package.decls ⟨name, G⟩).map Decl.declares := by
    refine forall₂_iff_map_eq.mp ((decls_of_editedUnseen name h).imp ?_)
    rintro _ _ (_ | _ | _) <;> rfl
  rw [Package.scope, Package.scope, List.flatMap_def, List.flatMap_def, hdeclares]

/-- Edits of hidden fields keep the outside of each type declaration. -/
theorem Package.types_map_outside_eq (name : String) {F G : List File}
    (h : List.Forall₂ File.EditedUnseen F G) :
    (Package.types ⟨name, F⟩).map TypeSpec.outside =
      (Package.types ⟨name, G⟩).map TypeSpec.outside := by
  have houtside : (Package.decls ⟨name, F⟩).map (fun d => d.type?.map TypeSpec.outside) =
      (Package.decls ⟨name, G⟩).map fun d => d.type?.map TypeSpec.outside := by
    refine forall₂_iff_map_eq.mp ((decls_of_editedUnseen name h).imp ?_)
    rintro _ _ (_ | _ | ⟨t, position, htype⟩)
    · rfl
    · rfl
    · simp only [Decl.type?, Option.map_some, TypeSpec.outside, htype.outside_eq]
  have hfilter := congrArg (List.filterMap id) houtside
  simp only [List.filterMap_map, Function.id_comp, ← List.map_filterMap] at hfilter
  exact hfilter

/-- **Edits of hidden fields keep the outside of a package.** -/
theorem Package.outside_resolve_eq (name : String) {F G : List File}
    (h : List.Forall₂ File.EditedUnseen F G) :
    (Package.resolve ⟨name, F⟩).outside = (Package.resolve ⟨name, G⟩).outside := by
  have htypes : (Package.resolve ⟨name, F⟩).types.map TypeSpec.outside =
      (Package.resolve ⟨name, G⟩).types.map TypeSpec.outside := by
    have hmove : ∀ (scope : Scope) (ts : List TypeSpec),
        (ts.map (TypeSpec.resolve scope)).map TypeSpec.outside =
          (ts.map TypeSpec.outside).map (TypeSpec.resolve scope) := by
      intro scope ts
      simp only [List.map_map, Function.comp_def, TypeSpec.resolve_outside]
    rw [Package.types_resolve, Package.types_resolve, hmove, hmove,
      Package.scope_eq_of_editedUnseen name h, Package.types_map_outside_eq name h]
  have hdecls := congrArg (List.map Decl.type) htypes
  simp only [List.map_map, Function.comp_def] at hdecls
  simp only [Package.outside, hdecls]
  rfl

/-! ## Reports -/

/-- A change without the places and the texts that it quotes. -/
def Change.headline (c : Change) : Severity × Reason × Option String × Option String :=
  (c.severity, c.reason, c.previous.map Snippet.name, c.latest.map Snippet.name)

/-- Types differ alike if they are seen from outside. -/
theorem TypeSpec.difference?_outside (p q : Package) (t u : TypeSpec) :
    t.outside.difference? p.outside u.outside q.outside = t.difference? p u q := by
  have hfollow : ∀ (p : Package) (t : TypeSpec), p.outside.follow t.outside =
      ⟨(p.follow t).typeParams, (p.follow t).type.outside, (p.follow t).viaName⟩ := by
    intro p t
    have hrewrites : p.Rewrites p.outside TypeSpec.outside id Expr.outside :=
      ⟨p.types_outside, fun _ => rfl, fun _ => rfl, fun _ => rfl, Expr.namedType?_outside⟩
    exact hrewrites.follow_eq t
  simp only [TypeSpec.difference?, hfollow, Expr.exportedOnly_outside, visibleDifference?_plain]
  rfl

/-- The headline of a change to a type does not depend on what is not visible. -/
theorem headline_typeChange_outside (P Q : Option Package) (x : Pair TypeSpec) :
    (typeChange (P.map Package.outside) (Q.map Package.outside) (x.map TypeSpec.outside)).map
        Change.headline = (typeChange P Q x).map Change.headline := by
  cases x with
  | removed t => rfl
  | added t => rfl
  | both t u =>
    cases P with
    | none => rfl
    | some p =>
      cases Q with
      | none => rfl
      | some q =>
        simp only [Option.map_some, Pair.map, typeChange, TypeSpec.difference?_outside]
        cases t.difference? p u q <;> rfl

/-- The extracted types seen from outside. -/
theorem exportedTypes_outside (P : Option Package) :
    exportedTypes (P.map Package.outside) = (exportedTypes P).map TypeSpec.outside := by
  cases P with
  | none => rfl
  | some p =>
    simp only [Option.map_some, exportedTypes, Package.types_outside, List.filter_map]
    rfl

/-- **A report on types depends on the outsides of both packages alone**, up to places and texts. -/
theorem headline_diffTypes_outside (P Q : Option Package) :
    (diffTypes (P.map Package.outside) (Q.map Package.outside)).map Change.headline =
      (diffTypes P Q).map Change.headline := by
  have hkey : ∀ t : TypeSpec, t.outside.key = t.key := fun _ => rfl
  rw [diffTypes, diffTypes, exportedTypes_outside, exportedTypes_outside]
  exact map_pairByKey_map hkey (headline_typeChange_outside P Q) _ _

/-- **Hidden fields do not show in a report.**  Files that differ in hidden fields, and in the
places of their declarations, compare alike with every package, as the older side and as the newer
one: the changes have the same severities, reasons and names in the same order. -/
theorem diffTypes_of_editedUnseen (name : String) {F G : List File}
    (h : List.Forall₂ File.EditedUnseen F G) (Q : Option Package) :
    (diffTypes (some (Package.resolve ⟨name, F⟩)) Q).map Change.headline =
        (diffTypes (some (Package.resolve ⟨name, G⟩)) Q).map Change.headline ∧
      (diffTypes Q (some (Package.resolve ⟨name, F⟩))).map Change.headline =
        (diffTypes Q (some (Package.resolve ⟨name, G⟩))).map Change.headline := by
  have houtside := Package.outside_resolve_eq name h
  constructor
  · rw [← headline_diffTypes_outside, Option.map_some, houtside, ← Option.map_some,
      headline_diffTypes_outside]
  · rw [← headline_diffTypes_outside, Option.map_some, houtside, ← Option.map_some,
      headline_diffTypes_outside]

/-! ### A session -/

/-- A name without a binding. -/
def unbound (name : String) : Ident :=
  ⟨name, none⟩

/-- Fields of one type, or an embedded one. -/
def fieldsOf (names : List String) (type : Expr) : Field :=
  ⟨names.map unbound, type, none⟩

/-- The peers of a session by their names, with fields of type string. -/
def peersType (names : List String) : Expr :=
  .map (.ident (unbound "string"))
    (.pointer (.struct [fieldsOf names (.ident (unbound "string"))]))

/-- A session with a hidden token in a group and an embedded mutex. -/
def sessionFields (peers : List String) : Fields :=
  [fieldsOf ["ID", "token"] (.ident (unbound "string")),
    fieldsOf [] (.ident (unbound "mutex")), fieldsOf ["Peers"] (peersType peers)]

/-- The session with its token at the end and of another type, and a logger for the mutex. -/
def reworkedFields (peers : List String) : Fields :=
  [fieldsOf [] (.pointer (.ident (unbound "logger"))),
    fieldsOf ["ID"] (.ident (unbound "string")), fieldsOf ["Peers"] (peersType peers),
    fieldsOf ["token"] (.slice (.ident (unbound "byte")))]

/-- A session with an identifier only. -/
def bareFields : Fields :=
  [fieldsOf ["ID"] (.ident (unbound "string"))]

/-- A file that declares the type of sessions on some line. -/
def sessionFile (fields : Fields) (line : Nat) : File :=
  ⟨"session.go", "session",
    [.type ⟨unbound "Session", [], false, .struct fields, ⟨"session.go", line, 6⟩⟩]⟩

/-- A package of that file. -/
def sessionRelease (fields : Fields) (line : Nat) : Package :=
  Package.resolve ⟨"session", [sessionFile fields line]⟩

/-- Reworking the hidden fields of a session, and dropping the hidden address of its peers, leaves
every comparison with the bare session as it was: peers are gone, or have been appended. -/
theorem diffTypes_of_editedUnseen_session :
    List.Forall₂ File.EditedUnseen [sessionFile (sessionFields ["Name", "addr"]) 5]
        [sessionFile (reworkedFields ["Name"]) 9] ∧
      (diffTypes (some (sessionRelease (sessionFields ["Name", "addr"]) 5))
          (some (sessionRelease bareFields 5))).map Change.headline =
        (diffTypes (some (sessionRelease (reworkedFields ["Name"]) 9))
          (some (sessionRelease bareFields 5))).map Change.headline ∧
      (diffTypes (some (sessionRelease bareFields 5))
          (some (sessionRelease (sessionFields ["Name", "addr"]) 5))).map Change.headline =
        (diffTypes (some (sessionRelease bareFields 5))
          (some (sessionRelease (reworkedFields ["Name"]) 9))).map Change.headline ∧
      (diffTypes (some (sessionRelease (reworkedFields ["Name"]) 9))
          (some (sessionRelease bareFields 5))).map Change.headline =
        [(.major, .typeChanged, some "Session", some "Session")] ∧
      (diffTypes (some (sessionRelease bareFields 5))
          (some (sessionRelease (reworkedFields ["Name"]) 9))).map Change.headline =
        [(.minor, .fieldsAppended, some "Session", some "Session")] := by
  let address : Slot := ⟨some (unbound "addr"), .ident (unbound "string"), none⟩
  let peers : Slot := ⟨some (unbound "Peers"), peersType ["Name"], none⟩
  have haddress : (peersType ["Name"]).HiddenEdit (peersType ["Name", "addr"]) :=
    .mapValue _ (.pointer (@Expr.HiddenEdit.slot _ _ (Fields.slots
      [fieldsOf ["Name"] (.ident (unbound "string"))]) [] address (by decide +kernel) rfl rfl))
  have hpeers : (Expr.struct (sessionFields ["Name"])).HiddenEdit
      (.struct (sessionFields ["Name", "addr"])) :=
    @Expr.HiddenEdit.field _ _ (Fields.slots ((sessionFields ["Name"]).take 2)) [] peers _ haddress
      rfl rfl
  have hrework : (Expr.struct (sessionFields ["Name"])).EditedUnseen
      (.struct (reworkedFields ["Name"])) := Expr.editedUnseen_of_visible_eq rfl
  have hfiles : List.Forall₂ File.EditedUnseen [sessionFile (sessionFields ["Name", "addr"]) 5]
      [sessionFile (reworkedFields ["Name"]) 9] :=
    .cons ⟨rfl, rfl, .cons (.type _ _ (.trans _ _ _ (.symm _ _ (.rel _ _ hpeers)) hrework)) .nil⟩
      .nil
  obtain ⟨hprevious, hlatest⟩ :=
    diffTypes_of_editedUnseen "session" hfiles (some (sessionRelease bareFields 5))
  exact ⟨hfiles, hprevious, hlatest, by decide +kernel, by decide +kernel⟩

end GoSurface
