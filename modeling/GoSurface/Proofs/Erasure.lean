/-
# Trees without their bindings

Binding the references of a tree adds to them and changes nothing else.  A tree can be read without
what its identifiers stand for, and printing reads it that way.

* `Expr.members`, `Expr.members_mapRefs`: the identifiers that are no references, which replacing
  references leaves alone;
* `Expr.erase`, `Expr.erase_mapRefs`: the tree without bindings, which forgets how references were
  bound;
* `Expr.text_erase`: bindings are not printed.
-/
import GoSurface.Syntax.Printer
import GoSurface.Proofs.Frames
import GoSurface.Proofs.Members

namespace GoSurface

/-! ## Members -/

mutual

/-- The selected names of a tree and the names of its fields, elements, parameters, results and type
parameters, from left to right. -/
def Expr.members : Expr → List Ident
  | .ident _ => []
  | .lit _ => []
  | .ellipsis e => e.members
  | .pointer e => e.members
  | .slice e => e.members
  | .paren e => e.members
  | .tilde e => e.members
  | .array n e => n.members ++ e.members
  | .map k v => k.members ++ v.members
  | .chan _ e => e.members
  | .func s => s.members
  | .struct fs => Fields.members fs
  | .interface fs => Fields.members fs
  | .selector e x => e.members ++ [x]
  | .index e es => e.members ++ Expr.membersList es
  | .union es => Expr.membersList es
  | .call e es => e.members ++ Expr.membersList es
  | .binary _ l r => l.members ++ r.members
  | .unary _ e => e.members
  | .keyValue k v => k.members ++ v.members
  | .composite t es => Expr.membersOption t ++ Expr.membersList es
  | .funcLit s => s.members
  | .sliceExpr e bs => e.members ++ Expr.membersOptions bs
  | .typeAssert e t => e.members ++ t.members
  | .unsupported _ => []

def Expr.membersList : List Expr → List Ident
  | [] => []
  | e :: es => e.members ++ Expr.membersList es

def Expr.membersOption : Option Expr → List Ident
  | none => []
  | some e => e.members

def Expr.membersOptions : List (Option Expr) → List Ident
  | [] => []
  | e :: es => Expr.membersOption e ++ Expr.membersOptions es

def Field.members : Field → List Ident
  | ⟨xs, t, _⟩ => xs ++ t.members

def Fields.members : List Field → List Ident
  | [] => []
  | f :: fs => f.members ++ Fields.members fs

def Signature.members : Signature → List Ident
  | ⟨ts, ps, rs⟩ => Fields.members ts ++ Fields.members ps ++ Fields.members rs

end

mutual

/-- The identifiers of a tree are its references and its members. -/
theorem Expr.mem_idents_iff {x : Ident} :
    ∀ e : Expr, x ∈ e.idents ↔ x ∈ e.refs ∨ x ∈ e.members
  | .ident _ | .lit _ | .unsupported _ => by simp [Expr.idents, Expr.refs, Expr.members]
  | .ellipsis e | .pointer e | .slice e | .paren e | .tilde e | .chan _ e | .unary _ e =>
    Expr.mem_idents_iff e
  | .selector e y => by
    simp only [Expr.idents, Expr.refs, Expr.members, List.mem_append, Expr.mem_idents_iff e,
      or_assoc]
  | .array a b | .map a b | .binary _ a b | .keyValue a b | .typeAssert a b => by
    simp only [Expr.idents, Expr.refs, Expr.members, List.mem_append, Expr.mem_idents_iff a,
      Expr.mem_idents_iff b, or_or_or_comm]
  | .func s | .funcLit s => Signature.mem_idents_iff s
  | .struct fs | .interface fs => Fields.mem_idents_iff fs
  | .index e es | .call e es => by
    simp only [Expr.idents, Expr.refs, Expr.members, List.mem_append, Expr.mem_idents_iff e,
      Expr.mem_identsList_iff es, or_or_or_comm]
  | .union es => Expr.mem_identsList_iff es
  | .composite t es => by
    simp only [Expr.idents, Expr.refs, Expr.members, List.mem_append, Expr.mem_identsOption_iff t,
      Expr.mem_identsList_iff es, or_or_or_comm]
  | .sliceExpr e bs => by
    simp only [Expr.idents, Expr.refs, Expr.members, List.mem_append, Expr.mem_idents_iff e,
      Expr.mem_identsOptions_iff bs, or_or_or_comm]

theorem Expr.mem_identsList_iff {x : Ident} :
    ∀ es : List Expr, x ∈ Expr.identsList es ↔ x ∈ Expr.refsList es ∨ x ∈ Expr.membersList es
  | [] => by simp [Expr.identsList, Expr.refsList, Expr.membersList]
  | e :: es => by
    simp only [Expr.identsList, Expr.refsList, Expr.membersList, List.mem_append,
      Expr.mem_idents_iff e, Expr.mem_identsList_iff es, or_or_or_comm]

theorem Expr.mem_identsOption_iff {x : Ident} :
    ∀ e : Option Expr,
      x ∈ Expr.identsOption e ↔ x ∈ Expr.refsOption e ∨ x ∈ Expr.membersOption e
  | none => by simp [Expr.identsOption, Expr.refsOption, Expr.membersOption]
  | some e => Expr.mem_idents_iff e

theorem Expr.mem_identsOptions_iff {x : Ident} :
    ∀ es : List (Option Expr),
      x ∈ Expr.identsOptions es ↔ x ∈ Expr.refsOptions es ∨ x ∈ Expr.membersOptions es
  | [] => by simp [Expr.identsOptions, Expr.refsOptions, Expr.membersOptions]
  | e :: es => by
    simp only [Expr.identsOptions, Expr.refsOptions, Expr.membersOptions, List.mem_append,
      Expr.mem_identsOption_iff e, Expr.mem_identsOptions_iff es, or_or_or_comm]

theorem Field.mem_idents_iff {x : Ident} :
    ∀ f : Field, x ∈ f.idents ↔ x ∈ f.refs ∨ x ∈ f.members
  | ⟨_, t, _⟩ => by
    simp only [Field.idents, Field.refs, Field.members, List.mem_append, Expr.mem_idents_iff t,
      or_left_comm]

theorem Fields.mem_idents_iff {x : Ident} :
    ∀ fs : List Field, x ∈ Fields.idents fs ↔ x ∈ Fields.refs fs ∨ x ∈ Fields.members fs
  | [] => by simp [Fields.idents, Fields.refs, Fields.members]
  | f :: fs => by
    simp only [Fields.idents, Fields.refs, Fields.members, List.mem_append, Field.mem_idents_iff f,
      Fields.mem_idents_iff fs, or_or_or_comm]

theorem Signature.mem_idents_iff {x : Ident} :
    ∀ s : Signature, x ∈ s.idents ↔ x ∈ s.refs ∨ x ∈ s.members
  | ⟨ts, ps, rs⟩ => by
    simp only [Signature.idents, Signature.refs, Signature.members, List.mem_append,
      Fields.mem_idents_iff ts, Fields.mem_idents_iff ps, Fields.mem_idents_iff rs, or_or_or_comm]

end

/-! ## Members under replacement -/

mutual

/-- Replacing references keeps members. -/
theorem Expr.members_mapRefs (f : Ident → Ident) : ∀ e : Expr, (e.mapRefs f).members = e.members
  | .ident _ | .lit _ | .unsupported _ => rfl
  | .ellipsis e | .pointer e | .slice e | .paren e | .tilde e | .chan _ e | .unary _ e =>
    Expr.members_mapRefs f e
  | .selector e _ => by simp only [Expr.mapRefs, Expr.members, Expr.members_mapRefs f e]
  | .array a b | .map a b | .binary _ a b | .keyValue a b | .typeAssert a b => by
    simp only [Expr.mapRefs, Expr.members, Expr.members_mapRefs f a, Expr.members_mapRefs f b]
  | .func s | .funcLit s => Signature.members_mapRefs f s
  | .struct fs | .interface fs => Fields.members_mapRefs f fs
  | .index e es | .call e es => by
    simp only [Expr.mapRefs, Expr.members, Expr.members_mapRefs f e,
      Expr.membersList_mapRefs f es]
  | .union es => Expr.membersList_mapRefs f es
  | .composite t es => by
    simp only [Expr.mapRefs, Expr.members, Expr.membersOption_mapRefs f t,
      Expr.membersList_mapRefs f es]
  | .sliceExpr e bs => by
    simp only [Expr.mapRefs, Expr.members, Expr.members_mapRefs f e,
      Expr.membersOptions_mapRefs f bs]

theorem Expr.membersList_mapRefs (f : Ident → Ident) :
    ∀ es : List Expr, Expr.membersList (Expr.mapRefsList f es) = Expr.membersList es
  | [] => rfl
  | e :: es => by
    simp only [Expr.mapRefsList, Expr.membersList, Expr.members_mapRefs f e,
      Expr.membersList_mapRefs f es]

theorem Expr.membersOption_mapRefs (f : Ident → Ident) :
    ∀ e : Option Expr, Expr.membersOption (Expr.mapRefsOption f e) = Expr.membersOption e
  | none => rfl
  | some e => Expr.members_mapRefs f e

theorem Expr.membersOptions_mapRefs (f : Ident → Ident) :
    ∀ es : List (Option Expr),
      Expr.membersOptions (Expr.mapRefsOptions f es) = Expr.membersOptions es
  | [] => rfl
  | e :: es => by
    simp only [Expr.mapRefsOptions, Expr.membersOptions, Expr.membersOption_mapRefs f e,
      Expr.membersOptions_mapRefs f es]

theorem Field.members_mapRefs (f : Ident → Ident) :
    ∀ x : Field, (x.mapRefs f).members = x.members
  | ⟨_, t, _⟩ => by simp only [Field.mapRefs, Field.members, Expr.members_mapRefs f t]

theorem Fields.members_mapRefs (f : Ident → Ident) :
    ∀ fs : List Field, Fields.members (Fields.mapRefs f fs) = Fields.members fs
  | [] => rfl
  | x :: fs => by
    simp only [Fields.mapRefs, Fields.members, Field.members_mapRefs f x,
      Fields.members_mapRefs f fs]

theorem Signature.members_mapRefs (f : Ident → Ident) :
    ∀ s : Signature, (s.mapRefs f).members = s.members
  | ⟨ts, ps, rs⟩ => by
    simp only [Signature.mapRefs, Signature.members, Fields.members_mapRefs f ts,
      Fields.members_mapRefs f ps, Fields.members_mapRefs f rs]

end

/-! ## Bindings erased -/

/-- The identifier by its spelling alone. -/
def Ident.unbind (x : Ident) : Ident :=
  ⟨x.name, none⟩

mutual

/-- The tree without bindings. -/
def Expr.erase : Expr → Expr
  | .ident x => .ident x.unbind
  | .lit l => .lit l
  | .ellipsis e => .ellipsis e.erase
  | .pointer e => .pointer e.erase
  | .slice e => .slice e.erase
  | .paren e => .paren e.erase
  | .tilde e => .tilde e.erase
  | .array n e => .array n.erase e.erase
  | .map k v => .map k.erase v.erase
  | .chan d e => .chan d e.erase
  | .func s => .func s.erase
  | .struct fs => .struct (Fields.erase fs)
  | .interface fs => .interface (Fields.erase fs)
  | .selector e x => .selector e.erase x.unbind
  | .index e es => .index e.erase (Expr.eraseList es)
  | .union es => .union (Expr.eraseList es)
  | .call e es => .call e.erase (Expr.eraseList es)
  | .binary op l r => .binary op l.erase r.erase
  | .unary op e => .unary op e.erase
  | .keyValue k v => .keyValue k.erase v.erase
  | .composite t es => .composite (Expr.eraseOption t) (Expr.eraseList es)
  | .funcLit s => .funcLit s.erase
  | .sliceExpr e bs => .sliceExpr e.erase (Expr.eraseOptions bs)
  | .typeAssert e t => .typeAssert e.erase t.erase
  | .unsupported k => .unsupported k

def Expr.eraseList : List Expr → List Expr
  | [] => []
  | e :: es => e.erase :: Expr.eraseList es

def Expr.eraseOption : Option Expr → Option Expr
  | none => none
  | some e => some e.erase

def Expr.eraseOptions : List (Option Expr) → List (Option Expr)
  | [] => []
  | e :: es => Expr.eraseOption e :: Expr.eraseOptions es

def Field.erase : Field → Field
  | ⟨xs, t, tag⟩ => ⟨xs.map Ident.unbind, t.erase, tag⟩

def Fields.erase : List Field → List Field
  | [] => []
  | f :: fs => f.erase :: Fields.erase fs

def Signature.erase : Signature → Signature
  | ⟨ts, ps, rs⟩ => ⟨Fields.erase ts, Fields.erase ps, Fields.erase rs⟩

end

mutual

/-- What is left of a tree without bindings does not depend on how its references are bound. -/
theorem Expr.erase_mapRefs {f : Ident → Ident} (hf : ∀ x, (f x).name = x.name) :
    ∀ e : Expr, (e.mapRefs f).erase = e.erase
  | .ident x => by simp only [Expr.mapRefs, Expr.erase, Ident.unbind, hf x]
  | .lit _ | .unsupported _ => rfl
  | .ellipsis e | .pointer e | .slice e | .paren e | .tilde e | .chan _ e | .selector e _
  | .unary _ e => by simp only [Expr.mapRefs, Expr.erase, Expr.erase_mapRefs hf e]
  | .array a b | .map a b | .binary _ a b | .keyValue a b | .typeAssert a b => by
    simp only [Expr.mapRefs, Expr.erase, Expr.erase_mapRefs hf a, Expr.erase_mapRefs hf b]
  | .func s | .funcLit s => by simp only [Expr.mapRefs, Expr.erase, Signature.erase_mapRefs hf s]
  | .struct fs | .interface fs => by
    simp only [Expr.mapRefs, Expr.erase, Fields.erase_mapRefs hf fs]
  | .index e es | .call e es => by
    simp only [Expr.mapRefs, Expr.erase, Expr.erase_mapRefs hf e, Expr.eraseList_mapRefs hf es]
  | .union es => by simp only [Expr.mapRefs, Expr.erase, Expr.eraseList_mapRefs hf es]
  | .composite t es => by
    simp only [Expr.mapRefs, Expr.erase, Expr.eraseOption_mapRefs hf t,
      Expr.eraseList_mapRefs hf es]
  | .sliceExpr e bs => by
    simp only [Expr.mapRefs, Expr.erase, Expr.erase_mapRefs hf e, Expr.eraseOptions_mapRefs hf bs]

theorem Expr.eraseList_mapRefs {f : Ident → Ident} (hf : ∀ x, (f x).name = x.name) :
    ∀ es : List Expr, Expr.eraseList (Expr.mapRefsList f es) = Expr.eraseList es
  | [] => rfl
  | e :: es => by
    simp only [Expr.mapRefsList, Expr.eraseList, Expr.erase_mapRefs hf e,
      Expr.eraseList_mapRefs hf es]

theorem Expr.eraseOption_mapRefs {f : Ident → Ident} (hf : ∀ x, (f x).name = x.name) :
    ∀ e : Option Expr, Expr.eraseOption (Expr.mapRefsOption f e) = Expr.eraseOption e
  | none => rfl
  | some e => by simp only [Expr.mapRefsOption, Expr.eraseOption, Expr.erase_mapRefs hf e]

theorem Expr.eraseOptions_mapRefs {f : Ident → Ident} (hf : ∀ x, (f x).name = x.name) :
    ∀ es : List (Option Expr), Expr.eraseOptions (Expr.mapRefsOptions f es) = Expr.eraseOptions es
  | [] => rfl
  | e :: es => by
    simp only [Expr.mapRefsOptions, Expr.eraseOptions, Expr.eraseOption_mapRefs hf e,
      Expr.eraseOptions_mapRefs hf es]

theorem Field.erase_mapRefs {f : Ident → Ident} (hf : ∀ x, (f x).name = x.name) :
    ∀ x : Field, (x.mapRefs f).erase = x.erase
  | ⟨_, t, _⟩ => by simp only [Field.mapRefs, Field.erase, Expr.erase_mapRefs hf t]

theorem Fields.erase_mapRefs {f : Ident → Ident} (hf : ∀ x, (f x).name = x.name) :
    ∀ fs : List Field, Fields.erase (Fields.mapRefs f fs) = Fields.erase fs
  | [] => rfl
  | x :: fs => by
    simp only [Fields.mapRefs, Fields.erase, Field.erase_mapRefs hf x, Fields.erase_mapRefs hf fs]

theorem Signature.erase_mapRefs {f : Ident → Ident} (hf : ∀ x, (f x).name = x.name) :
    ∀ s : Signature, (s.mapRefs f).erase = s.erase
  | ⟨ts, ps, rs⟩ => by
    simp only [Signature.mapRefs, Signature.erase, Fields.erase_mapRefs hf ts,
      Fields.erase_mapRefs hf ps, Fields.erase_mapRefs hf rs]

end

theorem Expr.eraseList_eq_map (es : List Expr) : Expr.eraseList es = es.map Expr.erase := by
  induction es with
  | nil => rfl
  | cons e es ih => rw [Expr.eraseList, ih, List.map_cons]

/-- An open identifier is its spelling. -/
theorem Ident.unbind_of_open {x : Ident} (h : x.isBound = false) : x.unbind = x := by
  obtain ⟨name, binding⟩ := x
  cases binding with
  | none => rfl
  | some b => cases h

theorem map_unbind_of_open {xs : List Ident} (h : ∀ x ∈ xs, x.isBound = false) :
    xs.map Ident.unbind = xs := by
  rw [List.map_congr_left fun x hx => Ident.unbind_of_open (h x hx), List.map_id']

mutual

/-- A tree that binds nothing has nothing to erase. -/
theorem Expr.erase_of_open : ∀ e : Expr, (∀ x ∈ e.idents, x.isBound = false) → e.erase = e
  | .ident x, h => congrArg Expr.ident (Ident.unbind_of_open (h x (List.mem_singleton_self x)))
  | .lit _, _ | .unsupported _, _ => rfl
  | .ellipsis e, h | .pointer e, h | .slice e, h | .paren e, h | .tilde e, h | .chan _ e, h
  | .unary _ e, h => by simp only [Expr.erase, Expr.erase_of_open e h]
  | .selector e x, h => by
    simp only [Expr.idents, List.forall_mem_append, List.forall_mem_singleton] at h
    simp only [Expr.erase, Expr.erase_of_open e h.1, Ident.unbind_of_open h.2]
  | .array a b, h | .map a b, h | .binary _ a b, h | .keyValue a b, h | .typeAssert a b, h => by
    simp only [Expr.idents, List.forall_mem_append] at h
    simp only [Expr.erase, Expr.erase_of_open a h.1, Expr.erase_of_open b h.2]
  | .func s, h | .funcLit s, h => by simp only [Expr.erase, Signature.erase_of_open s h]
  | .struct fs, h | .interface fs, h => by simp only [Expr.erase, Fields.erase_of_open fs h]
  | .index e es, h | .call e es, h => by
    simp only [Expr.idents, List.forall_mem_append] at h
    simp only [Expr.erase, Expr.erase_of_open e h.1, Expr.eraseList_of_open es h.2]
  | .union es, h => by simp only [Expr.erase, Expr.eraseList_of_open es h]
  | .composite t es, h => by
    simp only [Expr.idents, List.forall_mem_append] at h
    simp only [Expr.erase, Expr.eraseOption_of_open t h.1, Expr.eraseList_of_open es h.2]
  | .sliceExpr e bs, h => by
    simp only [Expr.idents, List.forall_mem_append] at h
    simp only [Expr.erase, Expr.erase_of_open e h.1, Expr.eraseOptions_of_open bs h.2]

theorem Expr.eraseList_of_open :
    ∀ es : List Expr, (∀ x ∈ Expr.identsList es, x.isBound = false) → Expr.eraseList es = es
  | [], _ => rfl
  | e :: es, h => by
    simp only [Expr.identsList, List.forall_mem_append] at h
    simp only [Expr.eraseList, Expr.erase_of_open e h.1, Expr.eraseList_of_open es h.2]

theorem Expr.eraseOption_of_open :
    ∀ e : Option Expr, (∀ x ∈ Expr.identsOption e, x.isBound = false) → Expr.eraseOption e = e
  | none, _ => rfl
  | some e, h => by simp only [Expr.eraseOption, Expr.erase_of_open e h]

theorem Expr.eraseOptions_of_open :
    ∀ es : List (Option Expr),
      (∀ x ∈ Expr.identsOptions es, x.isBound = false) → Expr.eraseOptions es = es
  | [], _ => rfl
  | e :: es, h => by
    simp only [Expr.identsOptions, List.forall_mem_append] at h
    simp only [Expr.eraseOptions, Expr.eraseOption_of_open e h.1, Expr.eraseOptions_of_open es h.2]

theorem Field.erase_of_open :
    ∀ f : Field, (∀ x ∈ f.idents, x.isBound = false) → f.erase = f
  | ⟨_, t, _⟩, h => by
    simp only [Field.idents, List.forall_mem_append] at h
    simp only [Field.erase, map_unbind_of_open h.1, Expr.erase_of_open t h.2]

theorem Fields.erase_of_open :
    ∀ fs : List Field, (∀ x ∈ Fields.idents fs, x.isBound = false) → Fields.erase fs = fs
  | [], _ => rfl
  | f :: fs, h => by
    simp only [Fields.idents, List.forall_mem_append] at h
    simp only [Fields.erase, Field.erase_of_open f h.1, Fields.erase_of_open fs h.2]

theorem Signature.erase_of_open :
    ∀ s : Signature, (∀ x ∈ s.idents, x.isBound = false) → s.erase = s
  | ⟨ts, ps, rs⟩, h => by
    simp only [Signature.idents, List.forall_mem_append] at h
    obtain ⟨⟨hts, hps⟩, hrs⟩ := h
    simp only [Signature.erase, Fields.erase_of_open ts hts, Fields.erase_of_open ps hps,
      Fields.erase_of_open rs hrs]

end

/-! ## Texts -/

theorem namesText_unbind (xs : List Ident) : namesText (xs.map Ident.unbind) = namesText xs := by
  rw [namesText, namesText, List.map_map]
  rfl

theorem Fields.resultsText_cons_cons (f g : Field) (fs : Fields) :
    Fields.resultsText (f :: g :: fs) = " " ++ paramsBody (Fields.texts (f :: g :: fs)) := by
  obtain ⟨_ | ⟨x, xs⟩, t, tag⟩ := f <;> rfl

theorem Expr.texts_eq_map (es : List Expr) : Expr.texts es = es.map Expr.text := by
  induction es with
  | nil => rfl
  | cons e es ih => rw [Expr.texts, ih, List.map_cons]

mutual

/-- Bindings are not printed. -/
theorem Expr.text_erase : ∀ e : Expr, e.erase.text = e.text
  | .ident _ | .lit _ | .unsupported _ => rfl
  | .ellipsis e | .pointer e | .slice e | .paren e | .tilde e | .chan _ e | .selector e _
  | .unary _ e => by simp only [Expr.erase, Expr.text, Expr.text_erase e, Ident.unbind]
  | .array a b | .map a b | .binary _ a b | .keyValue a b | .typeAssert a b => by
    simp only [Expr.erase, Expr.text, Expr.text_erase a, Expr.text_erase b]
  | .func s | .funcLit s => by simp only [Expr.erase, Expr.text, Signature.text_erase s]
  | .struct fs => by simp only [Expr.erase, Expr.text, Fields.texts_erase fs]
  | .interface fs => by simp only [Expr.erase, Expr.text, Fields.elemTexts_erase fs]
  | .index e es | .call e es => by
    simp only [Expr.erase, Expr.text, Expr.text_erase e, Expr.texts_erase es]
  | .union es => by simp only [Expr.erase, Expr.text, Expr.texts_erase es]
  | .composite t es => by
    simp only [Expr.erase, Expr.text, Expr.textOption_erase t, Expr.texts_erase es]
  | .sliceExpr e bs => by
    simp only [Expr.erase, Expr.text, Expr.text_erase e, Expr.textOptions_erase bs]

theorem Expr.texts_erase : ∀ es : List Expr, Expr.texts (Expr.eraseList es) = Expr.texts es
  | [] => rfl
  | e :: es => by simp only [Expr.eraseList, Expr.texts, Expr.text_erase e, Expr.texts_erase es]

theorem Expr.textOption_erase :
    ∀ e : Option Expr, Expr.textOption (Expr.eraseOption e) = Expr.textOption e
  | none => rfl
  | some e => Expr.text_erase e

theorem Expr.textOptions_erase :
    ∀ es : List (Option Expr), Expr.textOptions (Expr.eraseOptions es) = Expr.textOptions es
  | [] => rfl
  | e :: es => by
    simp only [Expr.eraseOptions, Expr.textOptions, Expr.textOption_erase e,
      Expr.textOptions_erase es]

theorem Field.text_erase : ∀ f : Field, f.erase.text = f.text
  | ⟨xs, t, _⟩ => by simp only [Field.erase, Field.text, namesText_unbind xs, Expr.text_erase t]

theorem Field.elemText_erase : ∀ f : Field, f.erase.elemText = f.elemText
  | ⟨xs, t, _⟩ => by
    have ht := Expr.text_erase t
    cases t with
    | func s =>
      simp only [Field.erase, Expr.erase, Field.elemText, namesText_unbind xs,
        Signature.text_erase s]
    | _ =>
      simp only [Expr.erase] at ht
      simp only [Field.erase, Expr.erase, Field.elemText, namesText_unbind xs, ht]

theorem Fields.texts_erase : ∀ fs : List Field, Fields.texts (Fields.erase fs) = Fields.texts fs
  | [] => rfl
  | f :: fs => by
    simp only [Fields.erase, Fields.texts, Field.text_erase f, Fields.texts_erase fs]

theorem Fields.elemTexts_erase :
    ∀ fs : List Field, Fields.elemTexts (Fields.erase fs) = Fields.elemTexts fs
  | [] => rfl
  | f :: fs => by
    simp only [Fields.erase, Fields.elemTexts, Field.elemText_erase f, Fields.elemTexts_erase fs]

theorem Fields.resultsText_erase :
    ∀ fs : List Field, Fields.resultsText (Fields.erase fs) = Fields.resultsText fs
  | [] => rfl
  | [⟨[], t, _⟩] => congrArg (" " ++ ·) (Expr.text_erase t)
  | [⟨x :: xs, t, tag⟩] => by
    -- The type is reached as a part of the list, so that the recursion stays structural.
    have htext : Field.text (Field.erase ⟨x :: xs, t, tag⟩) = Field.text ⟨x :: xs, t, tag⟩ := by
      simp only [Field.erase, Field.text, namesText_unbind (x :: xs), Expr.text_erase t]
    exact congrArg (fun text => " " ++ paramsBody [text]) htext
  | f :: g :: fs => by
    simp only [Fields.erase, Fields.resultsText_cons_cons, Fields.texts, Field.text_erase f,
      Field.text_erase g, Fields.texts_erase fs]

theorem Signature.text_erase : ∀ s : Signature, s.erase.text = s.text
  | ⟨ts, ps, rs⟩ => by
    simp only [Signature.erase, Signature.text, Fields.texts_erase ts, Fields.texts_erase ps,
      Fields.resultsText_erase rs]

end

end GoSurface
