/-
# Bindings can only separate

What identifiers stand for is compared only where both sides know it.  So erasing bindings, of
whichever identifiers, never makes two trees differ that were the same, and whatever is the same
after names have been resolved is the same as it was written.

* `ErasesBy`, `Expr.ErasesTo`: the same tree, with the bindings of some identifiers erased;
* `Expr.ErasesTo.row`: labels and parts are erased position by position;
* `Expr.same_of_erasesTo`: trees that are the same stay so;
* `bindings_only_separate`: the law, for trees, signatures, field lists and declarations.
-/
import GoSurface.Proofs.Scoping

namespace GoSurface

/-! ## Identifiers of a tree without bindings -/

mutual

/-- The identifiers of a tree without bindings are those of the tree, by their spelling. -/
theorem Expr.idents_erase : ∀ e : Expr, e.erase.idents = e.idents.map Ident.unbind
  | .ident _ | .lit _ | .unsupported _ => rfl
  | .ellipsis e | .pointer e | .slice e | .paren e | .tilde e | .chan _ e | .unary _ e =>
    Expr.idents_erase e
  | .selector e x => by
    simp only [Expr.erase, Expr.idents, List.map_append, Expr.idents_erase e, List.map_cons,
      List.map_nil]
  | .array a b | .map a b | .binary _ a b | .keyValue a b | .typeAssert a b => by
    simp only [Expr.erase, Expr.idents, List.map_append, Expr.idents_erase a, Expr.idents_erase b]
  | .func s | .funcLit s => Signature.idents_erase s
  | .struct fs | .interface fs => Fields.idents_erase fs
  | .index e es | .call e es => by
    simp only [Expr.erase, Expr.idents, List.map_append, Expr.idents_erase e,
      Expr.identsList_erase es]
  | .union es => Expr.identsList_erase es
  | .composite t es => by
    simp only [Expr.erase, Expr.idents, List.map_append, Expr.identsOption_erase t,
      Expr.identsList_erase es]
  | .sliceExpr e bs => by
    simp only [Expr.erase, Expr.idents, List.map_append, Expr.idents_erase e,
      Expr.identsOptions_erase bs]

theorem Expr.identsList_erase :
    ∀ es : List Expr, Expr.identsList (Expr.eraseList es) = (Expr.identsList es).map Ident.unbind
  | [] => rfl
  | e :: es => by
    simp only [Expr.eraseList, Expr.identsList, List.map_append, Expr.idents_erase e,
      Expr.identsList_erase es]

theorem Expr.identsOption_erase :
    ∀ e : Option Expr,
      Expr.identsOption (Expr.eraseOption e) = (Expr.identsOption e).map Ident.unbind
  | none => rfl
  | some e => Expr.idents_erase e

theorem Expr.identsOptions_erase :
    ∀ es : List (Option Expr),
      Expr.identsOptions (Expr.eraseOptions es) = (Expr.identsOptions es).map Ident.unbind
  | [] => rfl
  | e :: es => by
    simp only [Expr.eraseOptions, Expr.identsOptions, List.map_append, Expr.identsOption_erase e,
      Expr.identsOptions_erase es]

theorem Field.idents_erase : ∀ f : Field, f.erase.idents = f.idents.map Ident.unbind
  | ⟨_, t, _⟩ => by
    simp only [Field.erase, Field.idents, List.map_append, Expr.idents_erase t]

theorem Fields.idents_erase :
    ∀ fs : List Field, Fields.idents (Fields.erase fs) = (Fields.idents fs).map Ident.unbind
  | [] => rfl
  | f :: fs => by
    simp only [Fields.erase, Fields.idents, List.map_append, Field.idents_erase f,
      Fields.idents_erase fs]

theorem Signature.idents_erase : ∀ s : Signature, s.erase.idents = s.idents.map Ident.unbind
  | ⟨ts, ps, rs⟩ => by
    simp only [Signature.erase, Signature.idents, List.map_append, Fields.idents_erase ts,
      Fields.idents_erase ps, Fields.idents_erase rs]

end

/-! ## Some bindings erased -/

/-- The second identifier is the first, or its spelling alone. -/
def Ident.ErasesTo (x x' : Ident) : Prop :=
  x' = x ∨ x' = x.unbind

/-- The second thing is the first with the bindings of some of its identifiers erased: without any
bindings both are the same, and each identifier has kept its binding or has none. -/
structure ErasesBy {α : Type} (erase : α → α) (idents : α → List Ident) (a a' : α) : Prop where
  tree : erase a' = erase a
  idents : List.Forall₂ Ident.ErasesTo (idents a) (idents a')

/-- A tree with the bindings of some identifiers erased. -/
abbrev Expr.ErasesTo : Expr → Expr → Prop :=
  ErasesBy Expr.erase Expr.idents

abbrev Expr.RowErasesTo : List Expr → List Expr → Prop :=
  ErasesBy Expr.eraseList Expr.identsList

abbrev Expr.OptionErasesTo : Option Expr → Option Expr → Prop :=
  ErasesBy Expr.eraseOption Expr.identsOption

abbrev Expr.OptionsErasesTo : List (Option Expr) → List (Option Expr) → Prop :=
  ErasesBy Expr.eraseOptions Expr.identsOptions

abbrev Fields.ErasesTo : Fields → Fields → Prop :=
  ErasesBy Fields.erase Fields.idents

abbrev Signature.ErasesTo : Signature → Signature → Prop :=
  ErasesBy Signature.erase Signature.idents

section Rows

variable {α : Type} {erase : α → α} {idents : α → List Ident} {a a' : α}

theorem ErasesBy.refl (a : α) : ErasesBy erase idents a a :=
  ⟨rfl, List.forall₂_same.mpr fun _ _ => Or.inl rfl⟩

/-- What binds nothing is reached from whatever is the same without bindings. -/
theorem ErasesBy.of_open (hidents : ∀ a, idents (erase a) = (idents a).map Ident.unbind)
    (htree : erase a' = erase a) (hopen : ∀ x ∈ idents a', x.isBound = false) :
    ErasesBy erase idents a a' := by
  refine ⟨htree, ?_⟩
  have hspelling : idents a' = (idents a).map Ident.unbind := by
    rw [← hidents, ← htree, hidents, map_unbind_of_open hopen]
  rw [hspelling, List.forall₂_map_right_iff]
  exact List.forall₂_same.mpr fun _ _ => Or.inr rfl

theorem length_idents_eq (hidents : ∀ a, idents (erase a) = (idents a).map Ident.unbind)
    (htree : erase a' = erase a) : (idents a).length = (idents a').length := by
  rw [← List.length_map (f := Ident.unbind), ← hidents, ← htree, hidents, List.length_map]

/-- The identifiers at the front belong to the front on both sides. -/
theorem ErasesBy.split (hidents : ∀ a, idents (erase a) = (idents a).map Ident.unbind)
    (htree : erase a' = erase a) {xs xs' : List Ident}
    (h : List.Forall₂ Ident.ErasesTo (idents a ++ xs) (idents a' ++ xs')) :
    ErasesBy erase idents a a' ∧ List.Forall₂ Ident.ErasesTo xs xs' := by
  obtain ⟨hfront, hrest⟩ := (forall₂_append_iff (length_idents_eq hidents htree)).mp h
  exact ⟨⟨htree, hfront⟩, hrest⟩

/-- A row is erased entry by entry, if erasing and reading identifiers go along the row. -/
theorem ErasesBy.forall₂ {eraseRow : List α → List α} {identsRow : List α → List Ident}
    (hidents : ∀ a, idents (erase a) = (idents a).map Ident.unbind)
    (hnil : eraseRow [] = []) (hcons : ∀ a as, eraseRow (a :: as) = erase a :: eraseRow as)
    (hrow : ∀ a as, identsRow (a :: as) = idents a ++ identsRow as) {as as' : List α}
    (h : ErasesBy eraseRow identsRow as as') : List.Forall₂ (ErasesBy erase idents) as as' := by
  obtain ⟨htree, hids⟩ := h
  induction as generalizing as' with
  | nil =>
    cases as' with
    | nil => exact .nil
    | cons a' as' =>
      rw [hnil, hcons] at htree
      cases htree
  | cons a as ih =>
    cases as' with
    | nil =>
      rw [hnil, hcons] at htree
      cases htree
    | cons a' as' =>
      rw [hcons, hcons] at htree
      rw [hrow, hrow] at hids
      obtain ⟨hhead, htail⟩ := List.cons.inj htree
      -- Without bindings the first entries agree, so their identifiers end at the same place.
      obtain ⟨hfirst, hrest⟩ := ErasesBy.split hidents hhead hids
      exact .cons hfirst (ih htail hrest)

end Rows

/-! ## Rows, field lists and signatures -/

theorem Expr.RowErasesTo.forall₂ {es es' : List Expr} (h : Expr.RowErasesTo es es') :
    List.Forall₂ Expr.ErasesTo es es' :=
  ErasesBy.forall₂ Expr.idents_erase rfl (fun _ _ => rfl) (fun _ _ => rfl) h

/-- Two trees are erased one by one. -/
theorem Expr.forall₂_pair {l r l' r' : Expr} (hl : l'.erase = l.erase) (hr : r'.erase = r.erase)
    (h : List.Forall₂ Ident.ErasesTo (l.idents ++ r.idents) (l'.idents ++ r'.idents)) :
    List.Forall₂ Expr.ErasesTo [l, r] [l', r'] := by
  obtain ⟨hleft, hright⟩ := ErasesBy.split Expr.idents_erase hl h
  exact .cons hleft (.cons ⟨hr, hright⟩ .nil)

/-- A tree that may be absent stays present or absent. -/
theorem Expr.OptionErasesTo.row {e e' : Option Expr} (h : Expr.OptionErasesTo e e') :
    e.isSome = e'.isSome ∧ List.Forall₂ Expr.ErasesTo e.toList e'.toList := by
  obtain ⟨htree, hidents⟩ := h
  cases e with
  | none =>
    cases e' with
    | none => exact ⟨rfl, .nil⟩
    | some e' => cases htree
  | some e =>
    cases e' with
    | none => cases htree
    | some e' => exact ⟨rfl, .cons ⟨Option.some.inj htree, hidents⟩ .nil⟩

/-- Rows with gaps keep their gaps, and are erased tree by tree. -/
theorem Expr.OptionsErasesTo.row {es es' : List (Option Expr)} (h : Expr.OptionsErasesTo es es') :
    es.map Option.isSome = es'.map Option.isSome ∧
      List.Forall₂ Expr.ErasesTo (es.flatMap Option.toList) (es'.flatMap Option.toList) := by
  have hentries : List.Forall₂ Expr.OptionErasesTo es es' :=
    ErasesBy.forall₂ Expr.identsOption_erase rfl (fun _ _ => rfl) (fun _ _ => rfl) h
  clear h
  induction hentries with
  | nil => exact ⟨rfl, .nil⟩
  | cons hentry _ ih =>
    obtain ⟨hpresent, htrees⟩ := hentry.row
    obtain ⟨hgaps, hothers⟩ := ih
    exact ⟨by rw [List.map_cons, List.map_cons, hpresent, hgaps],
      List.rel_append htrees hothers⟩

/-- A slot with the bindings of some identifiers erased. -/
structure Slot.ErasesTo (s s' : Slot) : Prop where
  name : Option.Rel Ident.ErasesTo s.name s'.name
  type : s.type.ErasesTo s'.type
  tag : s.tag = s'.tag

/-- A field is erased slot by slot. -/
theorem Field.forall₂_slots {f f' : Field} (h : ErasesBy Field.erase Field.idents f f') :
    List.Forall₂ Slot.ErasesTo f.slots f'.slots := by
  obtain ⟨xs, t, tag⟩ := f
  obtain ⟨xs', t', tag'⟩ := f'
  obtain ⟨hnames, htype, rfl⟩ := Field.mk.inj h.tree
  have hlength : xs.length = xs'.length := by simpa using (congrArg List.length hnames).symm
  obtain ⟨hxs, hidents⟩ := (forall₂_append_iff hlength).mp h.idents
  have hslots : List.Forall₂ (Option.Rel Ident.ErasesTo) (slotNames xs) (slotNames xs') := by
    cases hxs with
    | nil => exact .cons .none .nil
    | cons hx hxs =>
      refine .cons (.some hx) ?_
      rw [List.forall₂_map_left_iff, List.forall₂_map_right_iff]
      exact hxs.imp fun _ _ h => .some h
  rw [Field.slots, Field.slots, List.forall₂_map_left_iff, List.forall₂_map_right_iff]
  exact hslots.imp fun _ _ hname => ⟨hname, ⟨htype, hidents⟩, rfl⟩

/-- A field list is erased slot by slot. -/
theorem Fields.forall₂_slots {fs fs' : Fields} (h : Fields.ErasesTo fs fs') :
    List.Forall₂ Slot.ErasesTo (Fields.slots fs) (Fields.slots fs') := by
  have hfields : List.Forall₂ (ErasesBy Field.erase Field.idents) fs fs' :=
    ErasesBy.forall₂ Field.idents_erase rfl (fun _ _ => rfl) (fun _ _ => rfl) h
  exact List.rel_flatMap hfields fun _ _ => Field.forall₂_slots

theorem Fields.forall₂_slotTypes {fs fs' : Fields} (h : Fields.ErasesTo fs fs') :
    List.Forall₂ Expr.ErasesTo (Fields.slotTypes fs) (Fields.slotTypes fs') := by
  rw [Fields.slotTypes, Fields.slotTypes, List.forall₂_map_left_iff, List.forall₂_map_right_iff]
  exact (Fields.forall₂_slots h).imp fun _ _ hslot => hslot.type

theorem Fields.forall₂_labels {fs fs' : Fields} (h : Fields.ErasesTo fs fs') :
    List.Forall₂ (Option.Rel Ident.ErasesTo) (Fields.labels fs) (Fields.labels fs') := by
  rw [Fields.labels, Fields.labels, List.forall₂_map_left_iff, List.forall₂_map_right_iff]
  exact (Fields.forall₂_slots h).imp fun _ _ hslot => hslot.name

/-- The tags of a field list are kept. -/
theorem Fields.tags_eq_of_erasesTo {fs fs' : Fields} (h : Fields.ErasesTo fs fs') :
    Fields.tags fs = Fields.tags fs' := by
  rw [Fields.tags, Fields.tags, ← List.forall₂_eq_eq_eq, List.forall₂_map_left_iff,
    List.forall₂_map_right_iff]
  exact (Fields.forall₂_slots h).imp fun _ _ hslot => hslot.tag

/-- The three lists of a signature are erased one by one. -/
theorem Signature.ErasesTo.lists {s s' : Signature} (h : s.ErasesTo s') :
    Fields.ErasesTo s.typeParams s'.typeParams ∧ Fields.ErasesTo s.params s'.params ∧
      Fields.ErasesTo s.results s'.results := by
  obtain ⟨ts, ps, rs⟩ := s
  obtain ⟨ts', ps', rs'⟩ := s'
  obtain ⟨htree, hidents⟩ := h
  obtain ⟨ht, hp, hr⟩ := Signature.mk.inj htree
  rw [Signature.idents, Signature.idents, List.append_assoc, List.append_assoc] at hidents
  obtain ⟨hts, hidents⟩ := ErasesBy.split Fields.idents_erase ht hidents
  obtain ⟨hps, hrs⟩ := ErasesBy.split Fields.idents_erase hp hidents
  exact ⟨hts, hps, hr, hrs⟩

/-- The tags and the types of a signature. -/
theorem Signature.ErasesTo.row {s s' : Signature} (h : s.ErasesTo s') :
    s.tags = s'.tags ∧ List.Forall₂ Expr.ErasesTo s.slotTypes s'.slotTypes := by
  obtain ⟨ht, hp, hr⟩ := h.lists
  refine ⟨?_, ?_⟩
  · rw [Signature.tags, Signature.tags, Fields.tags_eq_of_erasesTo ht,
      Fields.tags_eq_of_erasesTo hp, Fields.tags_eq_of_erasesTo hr]
  · exact List.rel_append (List.rel_append (Fields.forall₂_slotTypes ht)
      (Fields.forall₂_slotTypes hp)) (Fields.forall₂_slotTypes hr)

/-! ## Trees -/

/-- The root of a tree is kept but for bindings, and what is compared below it is erased part by
part. -/
theorem Expr.ErasesTo.row {a a' : Expr} (h : a.ErasesTo a') :
    a.form = a'.form ∧
      List.Forall₂ (Option.Rel Ident.ErasesTo) a.labels a'.labels ∧
      List.Forall₂ Expr.ErasesTo a.parts a'.parts := by
  obtain ⟨htree, hidents⟩ := h
  -- Roots of different kinds differ without bindings too.
  cases a <;> cases a' <;> try exact Expr.noConfusion htree
  case ident.ident x x' =>
    cases hidents with
    | cons hx _ => exact ⟨rfl, .cons (.some hx) .nil, .nil⟩
  case lit.lit l l' =>
    obtain rfl := Expr.lit.inj htree
    exact ⟨rfl, .nil, .nil⟩
  case unsupported.unsupported => exact ⟨rfl, .nil, .nil⟩
  case ellipsis.ellipsis => exact ⟨rfl, .nil, .cons ⟨Expr.ellipsis.inj htree, hidents⟩ .nil⟩
  case pointer.pointer => exact ⟨rfl, .nil, .cons ⟨Expr.pointer.inj htree, hidents⟩ .nil⟩
  case slice.slice => exact ⟨rfl, .nil, .cons ⟨Expr.slice.inj htree, hidents⟩ .nil⟩
  case paren.paren => exact ⟨rfl, .nil, .cons ⟨Expr.paren.inj htree, hidents⟩ .nil⟩
  case tilde.tilde => exact ⟨rfl, .nil, .cons ⟨Expr.tilde.inj htree, hidents⟩ .nil⟩
  case chan.chan d e d' e' =>
    obtain ⟨rfl, he⟩ := Expr.chan.inj htree
    exact ⟨rfl, .nil, .cons ⟨he, hidents⟩ .nil⟩
  case unary.unary op e op' e' =>
    obtain ⟨rfl, he⟩ := Expr.unary.inj htree
    exact ⟨rfl, .nil, .cons ⟨he, hidents⟩ .nil⟩
  case array.array =>
    obtain ⟨hl, hr⟩ := Expr.array.inj htree
    exact ⟨rfl, .nil, Expr.forall₂_pair hl hr hidents⟩
  case map.map =>
    obtain ⟨hl, hr⟩ := Expr.map.inj htree
    exact ⟨rfl, .nil, Expr.forall₂_pair hl hr hidents⟩
  case keyValue.keyValue =>
    obtain ⟨hl, hr⟩ := Expr.keyValue.inj htree
    exact ⟨rfl, .nil, Expr.forall₂_pair hl hr hidents⟩
  case typeAssert.typeAssert =>
    obtain ⟨hl, hr⟩ := Expr.typeAssert.inj htree
    exact ⟨rfl, .nil, Expr.forall₂_pair hl hr hidents⟩
  case binary.binary op l r op' l' r' =>
    obtain ⟨rfl, hl, hr⟩ := Expr.binary.inj htree
    exact ⟨rfl, .nil, Expr.forall₂_pair hl hr hidents⟩
  case selector.selector =>
    obtain ⟨he, hx⟩ := Expr.selector.inj htree
    obtain ⟨_, hname⟩ := ErasesBy.split Expr.idents_erase he hidents
    cases hname with
    | cons hname _ => exact ⟨rfl, .cons (.some hname) .nil, .nil⟩
  case func.func =>
    obtain ⟨htags, htypes⟩ := Signature.ErasesTo.row ⟨Expr.func.inj htree, hidents⟩
    exact ⟨congrArg Form.func htags, .nil, htypes⟩
  case funcLit.funcLit =>
    obtain ⟨htags, htypes⟩ := Signature.ErasesTo.row ⟨Expr.funcLit.inj htree, hidents⟩
    exact ⟨congrArg Form.funcLit htags, .nil, htypes⟩
  case struct.struct =>
    have hfields : Fields.ErasesTo _ _ := ⟨Expr.struct.inj htree, hidents⟩
    exact ⟨congrArg Form.struct (Fields.tags_eq_of_erasesTo hfields),
      Fields.forall₂_labels hfields, Fields.forall₂_slotTypes hfields⟩
  case interface.interface =>
    have hfields : Fields.ErasesTo _ _ := ⟨Expr.interface.inj htree, hidents⟩
    exact ⟨congrArg Form.interface (Fields.tags_eq_of_erasesTo hfields),
      Fields.forall₂_labels hfields, Fields.forall₂_slotTypes hfields⟩
  case index.index =>
    obtain ⟨he, hes⟩ := Expr.index.inj htree
    obtain ⟨hfirst, hrest⟩ := ErasesBy.split Expr.idents_erase he hidents
    exact ⟨rfl, .nil, .cons hfirst (Expr.RowErasesTo.forall₂ ⟨hes, hrest⟩)⟩
  case call.call =>
    obtain ⟨he, hes⟩ := Expr.call.inj htree
    obtain ⟨hfirst, hrest⟩ := ErasesBy.split Expr.idents_erase he hidents
    exact ⟨rfl, .nil, .cons hfirst (Expr.RowErasesTo.forall₂ ⟨hes, hrest⟩)⟩
  case union.union =>
    exact ⟨rfl, .nil, Expr.RowErasesTo.forall₂ ⟨Expr.union.inj htree, hidents⟩⟩
  case composite.composite =>
    obtain ⟨ht, hes⟩ := Expr.composite.inj htree
    obtain ⟨hfirst, hrest⟩ := ErasesBy.split Expr.identsOption_erase ht hidents
    obtain ⟨hpresent, htype⟩ := Expr.OptionErasesTo.row hfirst
    exact ⟨congrArg Form.composite hpresent, .nil,
      List.rel_append htype (Expr.RowErasesTo.forall₂ ⟨hes, hrest⟩)⟩
  case sliceExpr.sliceExpr =>
    obtain ⟨he, hbs⟩ := Expr.sliceExpr.inj htree
    obtain ⟨hfirst, hrest⟩ := ErasesBy.split Expr.idents_erase he hidents
    obtain ⟨hgaps, hbounds⟩ := Expr.OptionsErasesTo.row ⟨hbs, hrest⟩
    exact ⟨congrArg Form.sliceExpr hgaps, .nil, .cons hfirst hbounds⟩

/-! ## Equality without bindings -/

/-- What two identifiers stand for is compared only where both say it. -/
theorem Ident.same_of_erasesTo {x y x' y' : Ident} (hx : x.ErasesTo x') (hy : y.ErasesTo y')
    (h : x.same y = true) : x'.same y' = true := by
  have hname := Ident.name_eq_of_same h
  rcases hx with rfl | rfl
  · rcases hy with rfl | rfl
    · exact h
    · simp [Ident.same, Ident.unbind, hname]
  · rcases hy with rfl | rfl <;> simp [Ident.same, Ident.unbind, hname]

/-- Names that agree do so with less known about them. -/
theorem NameMode.agree_of_erasesTo {m : NameMode} {i j i' j' : Option Ident}
    (hi : Option.Rel Ident.ErasesTo i i') (hj : Option.Rel Ident.ErasesTo j j')
    (h : m.agree i j = true) : m.agree i' j' = true := by
  cases m with
  | ignored => rfl
  | significant =>
    cases hi with
    | none =>
      cases hj with
      | none => rfl
      | some _ => cases h
    | some hx =>
      cases hj with
      | none => cases h
      | some hy => exact Ident.same_of_erasesTo hx hy h

/-- Rows related entry by entry stay so when both are replaced entry by entry. -/
theorem forall₂_replace {α β : Type} {R : α → β → Prop} {S : α → α → Prop} {T : β → β → Prop}
    {as as' : List α} {bs bs' : List β}
    (h : ∀ a ∈ as, ∀ b a' b', S a a' → T b b' → R a b → R a' b')
    (hab : List.Forall₂ R as bs) (ha : List.Forall₂ S as as') (hb : List.Forall₂ T bs bs') :
    List.Forall₂ R as' bs' := by
  induction hab generalizing as' bs' with
  | nil =>
    cases ha
    cases hb
    exact .nil
  | @cons a b as bs hR _ ih =>
    cases ha with
    | cons hS ha =>
      cases hb with
      | cons hT hb =>
        refine .cons (h a (by simp) b _ _ hS hT hR) (ih ?_ ha hb)
        intro c hc
        exact h c (by simp [hc])

/-- Trees that are the same stay so when bindings are erased on either side. -/
theorem Expr.same_of_erasesTo {a b a' b' : Expr} (ha : a.ErasesTo a') (hb : b.ErasesTo b')
    (h : a.same b = true) : a'.same b' = true := by
  induction a using Expr.partInduction generalizing b a' b' with
  | step a ih =>
    obtain ⟨hform, hunderstood, hlabels, hparts⟩ := (Expr.same_iff a b).mp h
    obtain ⟨haForm, haLabels, haParts⟩ := ha.row
    obtain ⟨hbForm, hbLabels, hbParts⟩ := hb.row
    rw [Expr.same_iff, ← haForm, ← hbForm]
    refine ⟨hform, hunderstood, ?_, ?_⟩
    · exact forall₂_replace (fun _ _ _ _ _ => NameMode.agree_of_erasesTo) hlabels haLabels hbLabels
    · exact forall₂_replace (fun c hc _ _ _ hc' hd' => ih c hc hc' hd') hparts haParts hbParts

/-- Slots that agree do so when bindings are erased on either side. -/
theorem Slot.same_of_erasesTo {m : NameMode} {s t s' t' : Slot} (hs : s.ErasesTo s')
    (ht : t.ErasesTo t') (h : s.same m t = true) : s'.same m t' = true := by
  simp only [Slot.same, Bool.and_eq_true, decide_eq_true_eq] at h ⊢
  obtain ⟨⟨hname, htag⟩, htype⟩ := h
  refine ⟨⟨NameMode.agree_of_erasesTo hs.name ht.name hname, ?_⟩,
    Expr.same_of_erasesTo hs.type ht.type htype⟩
  rw [← hs.tag, ← ht.tag, htag]

/-- Field lists that are the same stay so when bindings are erased on either side. -/
theorem Fields.same_of_erasesTo {m : NameMode} {fs gs fs' gs' : Fields}
    (hf : Fields.ErasesTo fs fs') (hg : Fields.ErasesTo gs gs')
    (h : Fields.same m fs gs = true) : Fields.same m fs' gs' = true := by
  rw [Fields.same_iff] at h ⊢
  exact forall₂_replace (fun _ _ _ _ _ => Slot.same_of_erasesTo) h (Fields.forall₂_slots hf)
    (Fields.forall₂_slots hg)

/-- A list that another one extends is extended when bindings are erased on either side. -/
theorem Fields.extendedBy_of_erasesTo {fs gs fs' gs' : Fields} (hf : Fields.ErasesTo fs fs')
    (hg : Fields.ErasesTo gs gs') (h : Fields.extendedBy fs gs = true) :
    Fields.extendedBy fs' gs' = true := by
  have hfs := Fields.forall₂_slots hf
  have hgs := Fields.forall₂_slots hg
  simp only [Fields.extendedBy, Bool.and_eq_true, decide_eq_true_eq, Fields.sameSlots_iff] at h ⊢
  obtain ⟨hlength, hkept⟩ := h
  rw [← hfs.length_eq, ← hgs.length_eq]
  exact ⟨hlength, forall₂_replace (fun _ _ _ _ _ => Slot.same_of_erasesTo) hkept hfs
    (List.forall₂_take _ hgs)⟩

/-- Signatures that are the same stay so when bindings are erased on either side. -/
theorem Signature.same_of_erasesTo {s t s' t' : Signature} (hs : s.ErasesTo s')
    (ht : t.ErasesTo t') (h : s.same t = true) : s'.same t' = true := by
  rw [Signature.same_iff] at h ⊢
  obtain ⟨htags, htypes⟩ := h
  obtain ⟨hsTags, hsTypes⟩ := hs.row
  obtain ⟨htTags, htTypes⟩ := ht.row
  refine ⟨by rw [← hsTags, ← htTags, htags], ?_⟩
  exact forall₂_replace (fun _ _ _ _ _ => Expr.same_of_erasesTo) htypes hsTypes htTypes

/-! ## Declarations -/

/-- A declaration with the bindings of some identifiers erased. -/
abbrev Decl.ErasesTo : Decl → Decl → Prop :=
  ErasesBy Decl.erase Decl.idents

/-- The identifiers of a declaration without bindings are its own, by their spelling. -/
theorem Decl.idents_erase (d : Decl) : d.erase.idents = d.idents.map Ident.unbind := by
  cases d with
  | func f =>
    have hrecv : Fields.idents ((f.recv.map Fields.erase).getD []) =
        (Fields.idents (f.recv.getD [])).map Ident.unbind := by
      cases f.recv with
      | none => rfl
      | some fs => exact Fields.idents_erase fs
    simp only [Decl.erase, Decl.idents, List.map_cons, List.map_append, hrecv,
      Signature.idents_erase]
  | type t =>
    simp only [Decl.erase, Decl.idents, List.map_cons, List.map_append, Fields.idents_erase,
      Expr.idents_erase]
  | value v =>
    simp only [Decl.erase, Decl.idents, List.map_append, Expr.identsOption_erase,
      Expr.identsList_erase]

/-- Resolving binds identifiers that were written without a binding, and nothing else. -/
theorem Decl.resolve_erasesTo {d : Decl} (s : Scope)
    (h : ∀ x ∈ d.idents, x.isBound = false) : (d.resolve s).ErasesTo d :=
  ErasesBy.of_open Decl.idents_erase (Decl.erase_resolve s d).symm h

/-- Receiver and signature of a function are erased one by one. -/
theorem FuncDecl.row_of_erasesTo {f f' : FuncDecl} (h : (Decl.func f).ErasesTo (.func f')) :
    Option.Rel Fields.ErasesTo f.recv f'.recv ∧ f.sig.ErasesTo f'.sig := by
  obtain ⟨htree, hidents⟩ := h
  simp only [Decl.erase, Decl.func.injEq, FuncDecl.mk.injEq] at htree
  obtain ⟨hrecv, -, hsig, -⟩ := htree
  simp only [Decl.idents, List.forall₂_cons] at hidents
  obtain ⟨-, hidents⟩ := hidents
  cases hf : f.recv with
  | none =>
    cases hf' : f'.recv with
    | none =>
      rw [hf, hf'] at hidents
      exact ⟨.none, hsig, hidents⟩
    | some fs' =>
      rw [hf, hf'] at hrecv
      cases hrecv
  | some fs =>
    cases hf' : f'.recv with
    | none =>
      rw [hf, hf'] at hrecv
      cases hrecv
    | some fs' =>
      rw [hf, hf'] at hrecv hidents
      obtain ⟨hfields, hrest⟩ :=
        ErasesBy.split Fields.idents_erase (Option.some.inj hrecv) hidents
      exact ⟨.some hfields, hsig, hrest⟩

/-- Names, type and values of a declaration are erased one by one. -/
theorem ValueSpec.row_of_erasesTo {v v' : ValueSpec} (h : (Decl.value v).ErasesTo (.value v')) :
    List.Forall₂ Ident.ErasesTo v.names v'.names ∧ Expr.OptionErasesTo v.type v'.type ∧
      Expr.RowErasesTo v.values v'.values := by
  obtain ⟨htree, hidents⟩ := h
  simp only [Decl.erase, Decl.value.injEq, ValueSpec.mk.injEq] at htree
  obtain ⟨-, hnames, htype, hvalues, -⟩ := htree
  have hlength : v.names.length = v'.names.length := by
    simpa using (congrArg List.length hnames).symm
  rw [Decl.idents, Decl.idents, List.append_assoc, List.append_assoc] at hidents
  obtain ⟨hxs, hidents⟩ := (forall₂_append_iff hlength).mp hidents
  obtain ⟨ht, hvs⟩ := ErasesBy.split Expr.identsOption_erase htype hidents
  exact ⟨hxs, ht, hvalues, hvs⟩

/-- Receivers that are the same stay so when bindings are erased on either side. -/
theorem sameReceivers_of_erasesTo {r s r' s' : Option Fields}
    (hr : Option.Rel Fields.ErasesTo r r') (hs : Option.Rel Fields.ErasesTo s s')
    (h : sameReceivers r s = true) : sameReceivers r' s' = true := by
  cases hr with
  | none =>
    cases hs with
    | none => rfl
    | some _ => cases h
  | some hfs =>
    cases hs with
    | none => cases h
    | some hgs => exact Fields.same_of_erasesTo hfs hgs h

/-- Functions without a difference have none when bindings are erased on either side. -/
theorem FuncDecl.difference?_of_erasesTo {f g f' g' : FuncDecl}
    (hf : (Decl.func f).ErasesTo (.func f')) (hg : (Decl.func g).ErasesTo (.func g'))
    (h : f.difference? g = none) : f'.difference? g' = none := by
  obtain ⟨hfRecv, hfSig⟩ := FuncDecl.row_of_erasesTo hf
  obtain ⟨hgRecv, hgSig⟩ := FuncDecl.row_of_erasesTo hg
  rw [FuncDecl.difference?_eq_none_iff] at h ⊢
  obtain ⟨hrecv, hsig⟩ := h
  exact ⟨sameReceivers_of_erasesTo hfRecv hgRecv hrecv,
    Signature.same_of_erasesTo hfSig hgSig hsig⟩

/-- Constants and variables that are the same stay so when bindings are erased on either side. -/
theorem ValueSpec.same_of_erasesTo {v w v' w' : ValueSpec}
    (hv : (Decl.value v).ErasesTo (.value v')) (hw : (Decl.value w).ErasesTo (.value w'))
    (h : v.same w = true) : v'.same w' = true := by
  obtain ⟨hvNames, hvType, hvValues⟩ := ValueSpec.row_of_erasesTo hv
  obtain ⟨hwNames, hwType, hwValues⟩ := ValueSpec.row_of_erasesTo hw
  obtain ⟨hvPresent, hvTrees⟩ := hvType.row
  obtain ⟨hwPresent, hwTrees⟩ := hwType.row
  simp only [ValueSpec.same, Bool.and_eq_true, sameNames_iff, Expr.sameOption_iff,
    Expr.sameList_iff] at h ⊢
  obtain ⟨⟨hnames, hpresent, htype⟩, hvalues⟩ := h
  refine ⟨⟨?_, ?_, ?_⟩, ?_⟩
  · exact forall₂_replace (fun _ _ _ _ _ => Ident.same_of_erasesTo) hnames hvNames hwNames
  · rw [← hvPresent, ← hwPresent, hpresent]
  · exact forall₂_replace (fun _ _ _ _ _ => Expr.same_of_erasesTo) htype hvTrees hwTrees
  · exact forall₂_replace (fun _ _ _ _ _ => Expr.same_of_erasesTo) hvalues hvValues.forall₂
      hwValues.forall₂

/-! ## The law -/

/-- **Bindings can only separate.**  Trees, signatures and field lists that are the same stay so
when the bindings of any identifiers are erased, on one side or on both, and so does a list that
another one extends.  Functions, constants and variables that are the same once their packages have
been resolved are therefore the same as written. -/
theorem bindings_only_separate :
    (∀ a b a' b' : Expr, a.ErasesTo a' → b.ErasesTo b' → a.same b = true → a'.same b' = true) ∧
    (∀ s t s' t' : Signature, s.ErasesTo s' → t.ErasesTo t' → s.same t = true →
      s'.same t' = true) ∧
    (∀ fs gs fs' gs' : Fields, Fields.ErasesTo fs fs' → Fields.ErasesTo gs gs' →
      (∀ m, Fields.same m fs gs = true → Fields.same m fs' gs' = true) ∧
      (Fields.extendedBy fs gs = true → Fields.extendedBy fs' gs' = true)) ∧
    ∀ P Q : Package, P.Unbound → Q.Unbound →
      (∀ f ∈ P.funcs, ∀ g ∈ Q.funcs,
        (f.resolve P.scope).difference? (g.resolve Q.scope) = none → f.difference? g = none) ∧
      ∀ v ∈ P.values, ∀ w ∈ Q.values,
        (v.resolve P.scope).same (w.resolve Q.scope) = true → v.same w = true := by
  refine ⟨fun _ _ _ _ => Expr.same_of_erasesTo, fun _ _ _ _ => Signature.same_of_erasesTo,
    fun _ _ _ _ hf hg => ⟨fun _ => Fields.same_of_erasesTo hf hg,
      Fields.extendedBy_of_erasesTo hf hg⟩, ?_⟩
  intro P Q hP hQ
  refine ⟨fun f hf g hg => ?_, fun v hv w hw => ?_⟩
  · have hfOpen := hP _ (Decl.isKind_func.mem_filterMap.mp hf)
    have hgOpen := hQ _ (Decl.isKind_func.mem_filterMap.mp hg)
    exact FuncDecl.difference?_of_erasesTo (Decl.resolve_erasesTo P.scope hfOpen)
      (Decl.resolve_erasesTo Q.scope hgOpen)
  · have hvOpen := hP _ (Decl.isKind_value.mem_filterMap.mp hv)
    have hwOpen := hQ _ (Decl.isKind_value.mem_filterMap.mp hw)
    exact ValueSpec.same_of_erasesTo (Decl.resolve_erasesTo P.scope hvOpen)
      (Decl.resolve_erasesTo Q.scope hwOpen)

/-- The fields `x, y T` and `p.T`, with what the type, the second name and the selected name stand
for. -/
def fieldsOfT (type name selected : Option Binding) : Fields :=
  [⟨[⟨"x", none⟩, ⟨"y", name⟩], .ident ⟨"T", type⟩, none⟩,
    ⟨[], .selector (.ident ⟨"p", none⟩) ⟨"T", selected⟩, none⟩]

/-- Names that stand for different things set the fields apart, and names of which one side knows
nothing do not, whether or not more bindings are erased.  With its two files exchanged a package
binds `T` to its other declaration, and its function and its constant are the same with and without
bindings. -/
theorem bindings_only_separate_fieldsOfT :
    let t : Option Binding := some ⟨.type, "T", none⟩
    let c : Option Binding := some ⟨.constant, "T", some 2⟩
    let P := parameterNamedLikeConstant
    let Q : Package := { P with files := P.files.reverse }
    Fields.same .significant (fieldsOfT t c c) (fieldsOfT t t t) = false ∧
    Fields.same .significant (fieldsOfT t c c) (fieldsOfT t none c) = true ∧
    Fields.ErasesTo (fieldsOfT t c c) (fieldsOfT none c none) ∧
    Fields.same .significant (fieldsOfT none c none) (fieldsOfT t none c) = true ∧
    Fields.same .ignored (fieldsOfT none c none) (fieldsOfT t none c) = true ∧
    Fields.extendedBy (fieldsOfT none c none) (fieldsOfT t none c ++ fieldsOfT t t t) = true ∧
    (Expr.struct (fieldsOfT none c none)).same (.struct (fieldsOfT t none c)) = true ∧
    (Signature.mk [] (fieldsOfT none c none) []).same ⟨[], fieldsOfT t none c, []⟩ = true ∧
    P.Unbound ∧ Q.Unbound ∧ P.funcs.length = 1 ∧ P.values.length = 1 ∧
    (∀ f ∈ P.funcs, ∀ g ∈ Q.funcs,
      (f.resolve P.scope).difference? (g.resolve Q.scope) = none ∧ f.difference? g = none) ∧
    ∀ v ∈ P.values, ∀ w ∈ Q.values,
      (v.resolve P.scope).same (w.resolve Q.scope) = true ∧ v.same w = true := by
  intro t c P Q
  obtain ⟨htrees, hsignatures, hfields, hpackages⟩ := bindings_only_separate
  have hidents : List.Forall₂ Ident.ErasesTo (Fields.idents (fieldsOfT t c c))
      (Fields.idents (fieldsOfT none c none)) :=
    .cons (.inl rfl) (.cons (.inl rfl) (.cons (.inr rfl)
      (.cons (.inl rfl) (.cons (.inr rfl) .nil))))
  have herased : Fields.ErasesTo (fieldsOfT t c c) (fieldsOfT none c none) := ⟨rfl, hidents⟩
  have hlists := hfields (fieldsOfT t c c) (fieldsOfT t none c) _ _ herased (.refl _)
  have hlonger := hfields (fieldsOfT t c c) (fieldsOfT t none c ++ fieldsOfT t t t) _ _ herased
    (.refl _)
  have hfuncs : ∀ f ∈ P.funcs, ∀ g ∈ Q.funcs,
      (f.resolve P.scope).difference? (g.resolve Q.scope) = none := by decide
  have hvalues : ∀ v ∈ P.values, ∀ w ∈ Q.values,
      (v.resolve P.scope).same (w.resolve Q.scope) = true := by decide
  have hP : P.Unbound := by decide
  have hQ : Q.Unbound := by decide
  obtain ⟨hfuncsWritten, hvaluesWritten⟩ := hpackages P Q hP hQ
  refine ⟨by decide, by decide, herased, hlists.1 _ (by decide), hlists.1 _ (by decide),
    hlonger.2 (by decide), ?_, ?_, hP, hQ, by decide, by decide, ?_, ?_⟩
  · exact htrees (.struct (fieldsOfT t c c)) _ _ _ ⟨rfl, hidents⟩ (.refl _) (by decide)
  · refine hsignatures ⟨[], fieldsOfT t c c, []⟩ _ _ _ ⟨rfl, ?_⟩ (.refl _) (by decide)
    simpa [Signature.idents, Fields.idents] using hidents
  · exact fun f hf g hg => ⟨hfuncs f hf g hg, hfuncsWritten f hf g hg (hfuncs f hf g hg)⟩
  · exact fun v hv w hw => ⟨hvalues v hv w hw, hvaluesWritten v hv w hw (hvalues v hv w hw)⟩

end GoSurface
