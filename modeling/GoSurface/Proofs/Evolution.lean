/-
# How a struct may evolve

Two structs are compared by their visible slots, in order.  The later one may have further slots
after those of the earlier one, and nothing else: a slot that is moved, dropped or put between two
others shifts the names of the slots behind it.  What happens to the slots that cannot be seen, and
where they stand, makes no difference.

* `pairByKey_filter_key`, `about_pairByKey`: the pair of a key that both lists have once, and what
  is reported of it;
* `about_diffTypes`: what is reported of a type that both packages declare once;
* `Fields.visibleSlots`, `SlotsAgree`, `SlotsGrow`: the slots that are compared, and how;
* `Displaced`: slots that are permuted, deleted or put before others;
* `struct_evolution`: what is reported of a struct.
-/
import GoSurface.Proofs.Arity
import GoSurface.Proofs.Members
import GoSurface.Proofs.Verdict

namespace GoSurface

/-! ## What is reported of one declaration -/

section OneKey

variable {α κ : Type} [DecidableEq κ] {key : α → κ}

/-- Whether a pair is one of entries with this key. -/
def Pair.hasKey (key : α → κ) (k : κ) : Pair α → Bool
  | .removed p => key p = k
  | .added l => key l = k
  | .both p _ => key p = k

/-- A key that each of two lists has once has one pair, and both entries are in it. -/
theorem pairByKey_filter_key {ps ls : List α} {p l : α} {k : κ}
    (hps : ps.filter (fun a => key a = k) = [p]) (hls : ls.filter (fun a => key a = k) = [l]) :
    (pairByKey key ps ls).filter (Pair.hasKey key k) = [.both p l] := by
  -- The entries with the key are a class of their own.
  have hselects : Selects key (fun _ : α => ()) (Option.guard fun a => key a = k)
      (fun _ : Unit => k) := by
    refine ⟨fun _ _ _ => rfl, ?_, ?_⟩
    · intro a b hb
      rw [Option.guard_eq_some_iff] at hb
      simpa using hb.2
    · intro a _ ha
      exact ⟨a, by simp [ha]⟩
  have hchosen : ∀ x ∈ pairByKey key ps ls,
      x.choose? (Option.guard fun a => key a = k) = Option.guard (Pair.hasKey key k) x := by
    intro x hx
    cases x with
    | removed a | added a =>
      by_cases ha : key a = k <;> simp [Pair.choose?, Pair.hasKey, Option.guard, ha]
    | both a b =>
      have hkey := key_eq_of_both_mem hx
      by_cases ha : key a = k <;> simp [Pair.choose?, Pair.hasKey, Option.guard, ha, hkey]
  have hpairs := pairByKey_select hselects ps ls
  rw [List.filterMap_congr hchosen, List.filterMap_eq_filter, List.filterMap_eq_filter, hps,
    hls] at hpairs
  rw [← hpairs]
  simp [pairByKey, pairsOfPrevious, pairsOfLatest]

/-- The changes that quote something of this name. -/
def Diff.about (d : Diff) (name : String) : Diff :=
  d.filter fun c => c.snippets.any fun s => s.name = name

/-- What is reported under a name that goes with a key, if each of two lists has the key once and
changes quote the sides of their pairs. -/
theorem about_pairByKey {f : Pair α → Option Change} {quote : α → Snippet} {ps ls : List α}
    {p l : α} {k : κ} {name : String} (hps : ps.filter (fun a => key a = k) = [p])
    (hls : ls.filter (fun a => key a = k) = [l])
    (hquotes : ∀ x c, f x = some c →
      c.snippets = (x.previous?.toList ++ x.latest?.toList).map quote)
    (hname : ∀ a, a ∈ ps ∨ a ∈ ls → ((quote a).name = name ↔ key a = k)) :
    Diff.about ((pairByKey key ps ls).filterMap f) name = (f (.both p l)).toList := by
  have hquoted : ∀ x ∈ pairByKey key ps ls,
      ((f x).filter fun c => c.snippets.any fun s => s.name = name) =
        if x.hasKey key k then f x else none := by
    intro x hx
    obtain ⟨hprevious, hlatest⟩ := sides_of_mem_pairByKey hx
    cases hc : f x with
    | none => simp
    | some c =>
      rw [Option.filter_some, hquotes x c hc]
      cases x with
      | removed a =>
        simp [Pair.previous?, Pair.latest?, Pair.hasKey, hname a (.inl (hprevious a rfl))]
      | added b =>
        simp [Pair.previous?, Pair.latest?, Pair.hasKey, hname b (.inr (hlatest b rfl))]
      | both a b =>
        simp [Pair.previous?, Pair.latest?, Pair.hasKey, hname a (.inl (hprevious a rfl)),
          hname b (.inr (hlatest b rfl)), key_eq_of_both_mem hx]
  rw [Diff.about, List.filter_filterMap, List.filterMap_congr hquoted, ← List.filterMap_filter,
    pairByKey_filter_key hps hls]
  cases hboth : f (.both p l) <;> simp [hboth]

end OneKey

/-- A type without a double is all that is extracted under its name. -/
theorem Package.DeclaresOnce.filter_types {P : Package} {t : TypeSpec}
    (h : P.DeclaresOnce (.type t)) :
    (exportedTypes (some P)).filter (fun u => u.key = t.key) = [t] := by
  have hkeys : ∀ (d : Decl) (u : TypeSpec), d.type? = some u →
      decide (u.key = t.key) = decide (d.key = (Decl.type t).key) := by
    rintro (_ | _ | _) u ⟨⟩
    simp [Decl.key]
  rw [exportedTypes_some, filterMap_filter_comm hkeys, h.filter_eq]
  rfl

/-- **What is reported of a type** that both packages declare once: how the two declarations differ,
if they do, and nothing else. -/
theorem about_diffTypes {P Q : Package} {t u : TypeSpec} (ht : P.DeclaresOnce (.type t))
    (hu : Q.DeclaresOnce (.type u)) (hkey : u.key = t.key) :
    Diff.about (diffTypes (some P) (some Q)) t.key =
      ((t.difference? P u Q).map fun r =>
        Change.changed r.severity r t.snippet u.snippet).toList := by
  have hquotes : ∀ x c, typeChange (some P) (some Q) x = some c →
      c.snippets = (x.previous?.toList ++ x.latest?.toList).map TypeSpec.snippet := by
    rintro (v | v | ⟨v, w⟩) c hc
    · obtain rfl := Option.some.inj hc
      rfl
    · obtain rfl := Option.some.inj hc
      rfl
    · obtain ⟨r, -, rfl⟩ := Option.map_eq_some_iff.mp hc
      rfl
  have hlatest : (exportedTypes (some Q)).filter (fun v => v.key = t.key) = [u] := by
    rw [← hkey]
    exact hu.filter_types
  rw [← typeChange_both]
  exact about_pairByKey ht.filter_types hlatest hquotes fun v _ => Iff.rfl

/-! ## Rows of slots -/

/-- The slots of a struct that can be seen, each with what can be seen of its type. -/
def Fields.visibleSlots (fs : Fields) : List Slot :=
  ((Fields.slots fs).filter Slot.isVisible).map fun s => { s with type := s.type.exportedOnly }

/-- Rows of slots have one length and agree by name, tag and type. -/
def SlotsAgree (xs ys : List Slot) : Prop :=
  List.Forall₂ (fun a b => a.same .significant b = true) xs ys

/-- The second row is longer and starts with slots that agree with those of the first. -/
def SlotsGrow (xs ys : List Slot) : Prop :=
  xs.length < ys.length ∧ SlotsAgree xs (ys.take xs.length)

/-- How a slot is called, if it has a name. -/
def Slot.spelling (s : Slot) : Option String :=
  s.name.map Ident.name

/-- Slots that agree are called the same. -/
theorem Slot.spelling_eq_of_same {a b : Slot} (h : a.same .significant b = true) :
    a.spelling = b.spelling := by
  obtain ⟨x, t, tag⟩ := a
  obtain ⟨y, u, tag'⟩ := b
  simp only [Slot.same, Bool.and_eq_true] at h
  obtain ⟨⟨hname, -⟩, -⟩ := h
  cases x with
  | none =>
    cases y with
    | none => rfl
    | some y => cases hname
  | some x =>
    cases y with
    | none => cases hname
    | some y => exact congrArg some (Ident.name_eq_of_same hname)

/-- Rows that agree are called the same, slot by slot. -/
theorem SlotsAgree.map_spelling_eq {xs ys : List Slot} (h : SlotsAgree xs ys) :
    xs.map Slot.spelling = ys.map Slot.spelling := by
  rw [← forall₂_iff_map_eq]
  exact h.imp fun _ _ => Slot.spelling_eq_of_same

/-- A row that is kept, or that grows, passes its names on to the start of the later one. -/
theorem prefix_of_slots_kept {xs ys : List Slot} (h : SlotsAgree xs ys ∨ SlotsGrow xs ys) :
    xs.map Slot.spelling <+: ys.map Slot.spelling := by
  rcases h with h | ⟨-, h⟩
  · exact ⟨[], by rw [List.append_nil, h.map_spelling_eq]⟩
  · rw [h.map_spelling_eq]
    exact (List.take_prefix _ _).map _

/-! ## Displaced slots -/

/-- Ways to change a row of slots other than at its end: slots are put into another order, some are
deleted, or a slot is put before one that is called otherwise. -/
inductive Displaced : List Slot → List Slot → Prop
  | permuted {xs zs : List Slot} (h : zs.Perm xs) (hne : zs ≠ xs) : Displaced xs zs
  | deleted {xs zs : List Slot} (h : zs.Sublist xs) (hne : zs ≠ xs) : Displaced xs zs
  | inserted (before after : List Slot) {s next : Slot} (hname : s.spelling ≠ next.spelling) :
      Displaced (before ++ next :: after) (before ++ s :: next :: after)

/-- Once slots are displaced the names are no longer those at the start. -/
theorem Displaced.not_prefix {xs zs : List Slot} (h : Displaced xs zs)
    (hnames : (xs.map Slot.spelling).Nodup) :
    ¬ xs.map Slot.spelling <+: zs.map Slot.spelling := by
  intro hstart
  cases h with
  | permuted hperm hne =>
    have hnames' := hstart.eq_of_length (by simpa using hperm.length_eq.symm)
    -- Distinct names tell the slots apart, so equal names mean equal slots.
    have heq : List.Forall₂ (fun a b => a = b) zs xs := by
      refine (forall₂_congr_mem ?_).mp (forall₂_iff_map_eq.mpr hnames'.symm)
      intro a ha b hb
      refine ⟨fun hab => ?_, fun hab => congrArg Slot.spelling hab⟩
      exact List.inj_on_of_nodup_map hnames (hperm.mem_iff.mp ha) hb hab
    rw [List.forall₂_eq_eq_eq] at heq
    exact hne heq
  | deleted hsub hne =>
    have hle := hstart.length_le
    rw [List.length_map, List.length_map] at hle
    exact hne (hsub.eq_of_length (le_antisymm hsub.length_le hle))
  | inserted before after hname =>
    rw [List.map_append, List.map_append, List.prefix_append_right_inj, List.map_cons,
      List.map_cons, List.cons_prefix_cons] at hstart
    exact hname hstart.1.symm

/-! ## The law -/

/-- How two structs differ: not at all if their slots agree, by growth if slots are appended, and
otherwise they have changed. -/
theorem visibleDifference?_struct (fs gs : Fields) :
    (visibleDifference? (.struct fs) (.struct gs) = none ↔
      SlotsAgree (Fields.slots fs) (Fields.slots gs)) ∧
    (visibleDifference? (.struct fs) (.struct gs) = some .fieldsAppended ↔
      SlotsGrow (Fields.slots fs) (Fields.slots gs)) ∧
    (visibleDifference? (.struct fs) (.struct gs) = some .typeChanged ↔
      ¬ SlotsAgree (Fields.slots fs) (Fields.slots gs) ∧
      ¬ SlotsGrow (Fields.slots fs) (Fields.slots gs)) := by
  have hagree : SlotsAgree (Fields.slots fs) (Fields.slots gs) ↔
      Fields.same .significant fs gs = true := (Fields.same_iff _ fs gs).symm
  have hgrow : SlotsGrow (Fields.slots fs) (Fields.slots gs) ↔
      Fields.extendedBy fs gs = true := by
    rw [Fields.extendedBy, Bool.and_eq_true, decide_eq_true_eq, Fields.sameSlots_iff]
    rfl
  -- A list that has grown is longer, so it does not agree with the earlier one.
  have hnot : Fields.extendedBy fs gs = true → Fields.same .significant fs gs = false := by
    intro hext
    rw [Bool.eq_false_iff]
    intro hsame
    exact absurd (hagree.mpr hsame).length_eq (hgrow.mpr hext).1.ne
  rw [hagree, hgrow, visibleDifference?]
  cases hsame : Fields.same .significant fs gs <;> cases hext : Fields.extendedBy fs gs <;>
    simp_all

/-- Types of resolved packages with one name and the same type parameters differ as what is visible
of them does. -/
theorem TypeSpec.difference?_of_params {p q : Package} {t u : TypeSpec}
    (ht : Decl.type t ∈ p.resolve.surface) (hu : Decl.type u ∈ q.resolve.surface)
    (hkey : u.key = t.key)
    (hparams : Fields.same .ignored (p.resolve.follow t).typeParams
      (q.resolve.follow u).typeParams = true) :
    t.difference? p.resolve u q.resolve =
      visibleDifference? (p.resolve.follow t).type.exportedOnly
        (q.resolve.follow u).type.exportedOnly := by
  have hnames := namesAgree_of_resolve t u ht hu hkey
  rw [TypeSpec.namesAgree] at hnames
  rw [TypeSpec.difference?]
  cases hvia : (p.resolve.follow t).viaName || (q.resolve.follow u).viaName <;>
    simp_all

/-- A change of two quoted declarations is told by its reason. -/
theorem toList_changed_eq_iff {d : Option Reason} {r : Reason} {a b : Snippet} :
    (d.map fun r => Change.changed r.severity r a b).toList = [⟨r.severity, r, some a, some b⟩] ↔
      d = some r := by
  cases d with
  | none => simp
  | some r' =>
    simp only [Option.map_some, Option.toList_some, Change.changed, List.cons.injEq,
      Change.mk.injEq, and_true, Option.some.injEq]
    exact ⟨fun h => h.2, fun h => ⟨congrArg Reason.severity h, h⟩⟩

/-- **How structs evolve.**  Of an exported type that both packages declare once, and that stands for
structs with the same type parameters, nothing is reported exactly when the visible slots agree, a
minor change exactly when slots have been appended, and otherwise a major one.  If the names of the
earlier slots are distinct, it is major whenever the later slots are called like earlier ones that
have been permuted, deleted or separated. -/
theorem struct_evolution (p q : Package) {t u : TypeSpec} {fs gs : Fields}
    (ht : p.resolve.DeclaresOnce (.type t)) (hu : q.resolve.DeclaresOnce (.type u))
    (hkey : u.key = t.key)
    (hfs : (p.resolve.follow t).type = .struct fs) (hgs : (q.resolve.follow u).type = .struct gs)
    (hparams : Fields.same .ignored (p.resolve.follow t).typeParams
      (q.resolve.follow u).typeParams = true) :
    (Diff.about (diffTypes (some p.resolve) (some q.resolve)) t.key = [] ↔
      SlotsAgree (Fields.visibleSlots fs) (Fields.visibleSlots gs)) ∧
    (Diff.about (diffTypes (some p.resolve) (some q.resolve)) t.key =
        [⟨.minor, .fieldsAppended, some t.snippet, some u.snippet⟩] ↔
      SlotsGrow (Fields.visibleSlots fs) (Fields.visibleSlots gs)) ∧
    (Diff.about (diffTypes (some p.resolve) (some q.resolve)) t.key =
        [⟨.major, .typeChanged, some t.snippet, some u.snippet⟩] ↔
      ¬ SlotsAgree (Fields.visibleSlots fs) (Fields.visibleSlots gs) ∧
      ¬ SlotsGrow (Fields.visibleSlots fs) (Fields.visibleSlots gs)) ∧
    (((Fields.visibleSlots fs).map Slot.spelling).Nodup →
      ∀ zs, Displaced (Fields.visibleSlots fs) zs →
        (Fields.visibleSlots gs).map Slot.spelling = zs.map Slot.spelling →
        Diff.about (diffTypes (some p.resolve) (some q.resolve)) t.key =
          [⟨.major, .typeChanged, some t.snippet, some u.snippet⟩]) := by
  have hdiff := TypeSpec.difference?_of_params ht.1 hu.1 hkey hparams
  rw [hfs, hgs, Expr.exportedOnly, Expr.exportedOnly] at hdiff
  obtain ⟨hnone, hminor, hmajor⟩ :=
    visibleDifference?_struct (Fields.exportedOnly fs) (Fields.exportedOnly gs)
  rw [Fields.slots_exportedOnly, Fields.slots_exportedOnly, ← hdiff] at hnone hminor hmajor
  have hmajor' : Diff.about (diffTypes (some p.resolve) (some q.resolve)) t.key =
      [⟨.major, .typeChanged, some t.snippet, some u.snippet⟩] ↔
      ¬ SlotsAgree (Fields.visibleSlots fs) (Fields.visibleSlots gs) ∧
      ¬ SlotsGrow (Fields.visibleSlots fs) (Fields.visibleSlots gs) := by
    rw [about_diffTypes ht hu hkey]
    exact toList_changed_eq_iff.trans hmajor
  refine ⟨?_, ?_, hmajor', ?_⟩
  · rw [about_diffTypes ht hu hkey, Option.toList_eq_nil_iff, Option.map_eq_none_iff]
    exact hnone
  · rw [about_diffTypes ht hu hkey]
    exact toList_changed_eq_iff.trans hminor
  · intro hnames zs hzs hspelled
    rw [hmajor', ← not_or]
    intro hkept
    apply hzs.not_prefix hnames
    rw [← hspelled]
    exact prefix_of_slots_kept hkept

/-- A struct with these fields. -/
def dialType (fields : Fields) : TypeSpec :=
  ⟨⟨"Dial", some ⟨.type, "Dial", none⟩⟩, [], false, .struct fields, ⟨"dial.go", 3, 6⟩⟩

/-- A package with a struct. -/
def dialRelease (fields : Fields) : Package :=
  ⟨"dial", [⟨"dial.go", "dial", [.type (dialType fields)]⟩]⟩

/-- Numbers that share their type. -/
def numbers (names : List String) : Field :=
  ⟨names.map (⟨·, none⟩), .ident ⟨"int", none⟩, none⟩

/-- Two visible fields of a dial, with hidden ones before and between them. -/
def dialFields : Fields :=
  [numbers ["raw", "Low"], ⟨[], .selector (.ident ⟨"sync", none⟩) ⟨"mutex", none⟩, none⟩,
    numbers ["High"]]

/-- The fields of a dial with a third visible field between the two. -/
def separatedFields : Fields := [numbers ["Low", "step", "Unit", "High", "unit"]]

/-- The fields of a dial with a third visible field after the two. -/
def extendedFields : Fields := [numbers ["Low", "step", "High", "unit", "Unit"]]

/-- A field between two visible ones is a major change and a field after them a minor one, while
hidden ones come and go. -/
theorem struct_evolution_dial :
    (dialRelease dialFields).resolve.DeclaresOnce (.type (dialType dialFields)) ∧
    (dialRelease separatedFields).resolve.DeclaresOnce (.type (dialType separatedFields)) ∧
    (dialRelease extendedFields).resolve.DeclaresOnce (.type (dialType extendedFields)) ∧
    Diff.about (diffTypes (some (dialRelease dialFields).resolve)
        (some (dialRelease separatedFields).resolve)) "Dial" =
      [⟨.major, .typeChanged, some (dialType dialFields).snippet,
        some (dialType separatedFields).snippet⟩] ∧
    Diff.about (diffTypes (some (dialRelease dialFields).resolve)
        (some (dialRelease extendedFields).resolve)) "Dial" =
      [⟨.minor, .fieldsAppended, some (dialType dialFields).snippet,
        some (dialType extendedFields).snippet⟩] := by
  have hprevious : (dialRelease dialFields).resolve.DeclaresOnce
      (.type (dialType dialFields)) := ⟨List.mem_singleton_self _, by decide +kernel⟩
  have hseparated : (dialRelease separatedFields).resolve.DeclaresOnce
      (.type (dialType separatedFields)) := ⟨List.mem_singleton_self _, by decide +kernel⟩
  have hextended : (dialRelease extendedFields).resolve.DeclaresOnce
      (.type (dialType extendedFields)) := ⟨List.mem_singleton_self _, by decide +kernel⟩
  refine ⟨hprevious, hseparated, hextended, ?_, ?_⟩
  · have hlaw := struct_evolution _ _ hprevious hseparated rfl rfl rfl (by decide +kernel)
    refine hlaw.2.2.2 (by decide +kernel) (Fields.visibleSlots separatedFields) ?_ rfl
    exact .inserted (numbers ["Low"]).slots [] (by decide)
  · have hlaw := struct_evolution _ _ hprevious hextended rfl rfl rfl (by decide +kernel)
    refine hlaw.2.1.mpr ⟨by decide +kernel, ?_⟩
    exact .cons (by decide +kernel) (.cons (by decide +kernel) .nil)

end GoSurface
