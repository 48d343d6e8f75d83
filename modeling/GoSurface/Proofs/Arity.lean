/-
# The number of type parameters

To take or drop type parameters is a change that every user of a generic declaration notices.
Functions are compared with their own type parameters.  Types are compared with those of the
declaration that their right-hand side leads to: as long as no name is followed these are their own,
but after one hop their own type parameters are not looked at.

* `Fields.arity`: how many type parameters a list declares;
* `Package.DeclaresOnce`: the one extracted declaration with a key;
* `change_of_arity`: which changes of arity are reported;
* `diffTypes_box`: one that is not.
-/
import GoSurface.Proofs.Following
import GoSurface.Proofs.Repeats

namespace GoSurface

/-! ## Arities -/

/-- The number of slots of a list of type parameters. -/
def Fields.arity (fs : Fields) : Nat :=
  (Fields.slots fs).length

theorem Fields.arity_eq_of_same {m : NameMode} {fs gs : Fields} (h : Fields.same m fs gs = true) :
    Fields.arity fs = Fields.arity gs := by
  rw [Fields.same, Fields.sameSlots_eq, Bool.and_eq_true, decide_eq_true_eq] at h
  exact h.1

/-- Signatures that agree have as many type parameters. -/
theorem Signature.arity_eq_of_same {s t : Signature} (h : s.same t = true) :
    Fields.arity s.typeParams = Fields.arity t.typeParams := by
  cases s with
  | mk ts ps rs =>
    simp only [Signature.same, Bool.and_eq_true] at h
    exact Fields.arity_eq_of_same h.1.1

/-- Types that lead to declarations of different arity have changed. -/
theorem TypeSpec.difference?_of_arity {P Q : Package} {t u : TypeSpec}
    (h : Fields.arity (P.follow t).typeParams ≠ Fields.arity (Q.follow u).typeParams) :
    t.difference? P u Q = some .typeChanged := by
  have hparams : Fields.same .ignored (P.follow t).typeParams (Q.follow u).typeParams = false := by
    rw [Bool.eq_false_iff]
    exact fun hsame => h (Fields.arity_eq_of_same hsame)
  simp only [TypeSpec.difference?, hparams, Bool.not_false, if_true, ite_self]

/-- Functions of different arity have changed, which is a major change. -/
theorem FuncDecl.difference?_of_arity {f g : FuncDecl}
    (h : Fields.arity f.sig.typeParams ≠ Fields.arity g.sig.typeParams) :
    ∃ r, f.difference? g = some r ∧ r.severity = .major := by
  have hsig : f.sig.same g.sig = false := by
    rw [Bool.eq_false_iff]
    exact fun hsame => h (Signature.arity_eq_of_same hsame)
  cases hrecv : sameReceivers f.recv g.recv with
  | true => exact ⟨.signatureChanged, by simp [FuncDecl.difference?, hrecv, hsig], rfl⟩
  | false => exact ⟨.receiverChanged, by simp [FuncDecl.difference?, hrecv], rfl⟩

/-- After a hop, the type parameters of the declaration itself are forgotten. -/
theorem Package.follow_typeParams {P : Package} {t : TypeSpec} (h : (P.follow t).viaName = true)
    (params : Fields) : P.follow { t with typeParams := params } = P.follow t := by
  rw [Package.follow] at h ⊢
  cases hlength : P.types.length with
  | zero =>
    rw [hlength] at h
    cases h
  | succ hops =>
    rw [hlength, Package.followFrom] at h
    rw [Package.follow, hlength, Package.followFrom, Package.followFrom]
    cases hstep : P.next? [t.name.name] t.type with
    | none =>
      simp only [hstep] at h
      cases h
    | some step => rfl

/-- If no name is followed, then a declaration stands for itself. -/
theorem Package.followFrom_of_not_viaName {P : Package} {hops : Nat} {visited : List String}
    {r : Resolved} (h : (P.followFrom hops visited r).viaName = false) :
    P.followFrom hops visited r = r := by
  have hvia : ∀ hops visited (r : Resolved), r.viaName = true →
      (P.followFrom hops visited r).viaName = true := by
    intro hops
    induction hops with
    | zero => exact fun _ _ hr => hr
    | succ hops ih =>
      intro visited r hr
      rw [Package.followFrom]
      split
      · exact hr
      · exact ih _ _ rfl
  cases hops with
  | zero => rfl
  | succ hops =>
    rw [Package.followFrom] at h ⊢
    cases hstep : P.next? visited r.type with
    | none => rfl
    | some step =>
      -- Once a name has been followed, the result says so.
      simp only [hstep] at h
      rw [hvia hops _ _ rfl] at h
      cases h

/-! ## Declarations without a double -/

/-- An extracted declaration whose key no other one has. -/
def Package.DeclaresOnce (p : Package) (d : Decl) : Prop :=
  d ∈ p.surface ∧ p.occurrences d.key = 1

/-- A declaration without a double is all that is extracted with its key. -/
theorem Package.DeclaresOnce.filter_eq {P : Package} {d : Decl} (h : P.DeclaresOnce d) :
    P.surface.filter (fun x => x.key = d.key) = [d] := by
  obtain ⟨hmem, hcount⟩ := h
  have hlength : (P.surface.filter fun x => x.key = d.key).length = 1 := by
    rw [← hcount, Package.occurrences, List.count_eq_countP, List.countP_map,
      List.countP_eq_length_filter]
    congr 2
  obtain ⟨a, ha⟩ := List.length_eq_one_iff.mp hlength
  have hd : d ∈ P.surface.filter fun x => x.key = d.key :=
    List.mem_filter.mpr ⟨hmem, by simp⟩
  rw [ha] at hd ⊢
  rw [List.mem_singleton.mp hd]

/-- A declaration without a double is the first with its key. -/
theorem Package.DeclaresOnce.partner?_eq {P : Package} {d : Decl} (h : P.DeclaresOnce d) :
    partner? Decl.key P.surface d = some d := by
  have hself : d.key = d.key := rfl
  obtain ⟨e, he⟩ := exists_partner? h.1 hself
  obtain ⟨hemem, hkey⟩ := mem_of_partner? he
  have hfiltered : e ∈ P.surface.filter fun x => x.key = d.key :=
    List.mem_filter.mpr ⟨hemem, by simpa using hkey⟩
  rw [h.filter_eq] at hfiltered
  rw [he, List.mem_singleton.mp hfiltered]

/-- Declarations of one key without doubles are partners. -/
theorem Package.DeclaresOnce.both_mem_pairs {P Q : Package} {d e : Decl} (hd : P.DeclaresOnce d)
    (he : Q.DeclaresOnce e) (hkey : e.key = d.key) : Pair.both d e ∈ P.pairs Q := by
  have hpartner : partner? Decl.key Q.surface d = some e := by
    rw [partner?_congr hkey.symm]
    exact he.partner?_eq
  exact both_mem_pairByKey_iff.mpr ⟨hd.partner?_eq, hpartner⟩

/-- A difference between types without doubles is reported. -/
theorem mem_diffTypes_of_difference? {P Q : Package} {t u : TypeSpec} {r : Reason}
    (ht : P.DeclaresOnce (.type t)) (hu : Q.DeclaresOnce (.type u)) (hkey : u.key = t.key)
    (h : t.difference? P u Q = some r) :
    ⟨r.severity, r, some t.snippet, some u.snippet⟩ ∈ diffTypes (some P) (some Q) := by
  have hpair := ht.both_mem_pairs hu (congrArg DeclKey.type hkey)
  have hfinding : finding? P Q (.both (.type t) (.type u)) =
      some ⟨r, .both (.type t) (.type u)⟩ := by
    simp only [finding?, reportReason?, Decl.difference?, h, Option.map_some]
  rw [diffTypes_eq]
  refine List.mem_map.mpr ⟨⟨r, .both (.type t) (.type u)⟩, ?_, rfl⟩
  exact List.mem_filterMap.mpr ⟨_, List.mem_filter.mpr ⟨hpair, rfl⟩, hfinding⟩

/-- A difference between functions without doubles is reported. -/
theorem mem_diffFunctions_of_difference? {P Q : Package} {f g : FuncDecl} {r : Reason}
    (hf : P.DeclaresOnce (.func f)) (hg : Q.DeclaresOnce (.func g)) (hkey : g.key = f.key)
    (h : f.difference? g = some r) :
    ⟨r.severity, r, some f.snippet, some g.snippet⟩ ∈ diffFunctions (some P) (some Q) := by
  have hpair := hf.both_mem_pairs hg (congrArg DeclKey.func hkey)
  have hfinding : finding? P Q (.both (.func f) (.func g)) =
      some ⟨r, .both (.func f) (.func g)⟩ := by
    simp only [finding?, reportReason?, Decl.difference?, h, Option.map_some]
  rw [diffFunctions_eq]
  refine List.mem_map.mpr ⟨⟨r, .both (.func f) (.func g)⟩, ?_, rfl⟩
  exact List.mem_filterMap.mpr ⟨_, List.mem_filter.mpr ⟨hpair, rfl⟩, hfinding⟩

/-! ## The law -/

/-- **Changes of arity.**  A type or a function that both packages declare once is reported as a
major change if the arity of what is compared has changed.  For a function these are its own type
parameters.  For a type they are those of the declaration that it leads to: its own ones if no name
is followed, and never its own ones after a hop. -/
theorem change_of_arity (p q : Package) :
    (∀ t u, p.resolve.DeclaresOnce (.type t) → q.resolve.DeclaresOnce (.type u) →
      u.key = t.key →
      Fields.arity (p.resolve.follow t).typeParams ≠
        Fields.arity (q.resolve.follow u).typeParams →
      ⟨.major, .typeChanged, some t.snippet, some u.snippet⟩ ∈
        diffTypes (some p.resolve) (some q.resolve)) ∧
    (∀ t, (p.resolve.follow t).viaName = false →
      (p.resolve.follow t).typeParams = t.typeParams) ∧
    (∀ t params, (p.resolve.follow t).viaName = true →
      p.resolve.follow { t with typeParams := params } = p.resolve.follow t) ∧
    (∀ f g, p.resolve.DeclaresOnce (.func f) → q.resolve.DeclaresOnce (.func g) →
      g.key = f.key → Fields.arity f.sig.typeParams ≠ Fields.arity g.sig.typeParams →
      ∃ r, ⟨.major, r, some f.snippet, some g.snippet⟩ ∈
        diffFunctions (some p.resolve) (some q.resolve)) := by
  refine ⟨?_, ?_, ?_, ?_⟩
  · intro t u ht hu hkey harity
    exact mem_diffTypes_of_difference? ht hu hkey (TypeSpec.difference?_of_arity harity)
  · intro t hvia
    have hself := Package.followFrom_of_not_viaName hvia
    exact congrArg Resolved.typeParams hself
  · intro t params hvia
    exact Package.follow_typeParams hvia params
  · intro f g hf hg hkey harity
    obtain ⟨r, hr, hmajor⟩ := FuncDecl.difference?_of_arity harity
    refine ⟨r, ?_⟩
    rw [← hmajor]
    exact mem_diffFunctions_of_difference? hf hg hkey hr

/-- A generic type over maps, with its type parameters. -/
def tableType (params : List String) : TypeSpec :=
  ⟨⟨"Table", some ⟨.type, "Table", none⟩⟩,
    params.map fun x => ⟨[⟨x, none⟩], .ident ⟨"any", none⟩, none⟩, false,
    .map (.ident ⟨"string", none⟩) (.ident ⟨"T", none⟩), ⟨"table.go", 3, 6⟩⟩

/-- A package with a generic type. -/
def tableRelease (params : List String) : Package :=
  ⟨"table", [⟨"table.go", "table", [.type (tableType params)]⟩]⟩

/-- A second type parameter, even one that is not used, is a major change. -/
theorem change_of_second_parameter :
    (tableRelease ["T"]).resolve.DeclaresOnce (.type (tableType ["T"])) ∧
    (tableRelease ["T", "U"]).resolve.DeclaresOnce (.type (tableType ["T", "U"])) ∧
    Fields.arity (tableType ["T"]).typeParams = 1 ∧
    Fields.arity (tableType ["T", "U"]).typeParams = 2 ∧
    ⟨.major, .typeChanged, some (tableType ["T"]).snippet,
        some (tableType ["T", "U"]).snippet⟩ ∈
      diffTypes (some (tableRelease ["T"]).resolve) (some (tableRelease ["T", "U"]).resolve) := by
  have hprevious : (tableRelease ["T"]).resolve.DeclaresOnce (.type (tableType ["T"])) :=
    ⟨List.mem_singleton_self _, by decide +kernel⟩
  have hlatest : (tableRelease ["T", "U"]).resolve.DeclaresOnce (.type (tableType ["T", "U"])) :=
    ⟨List.mem_singleton_self _, by decide +kernel⟩
  refine ⟨hprevious, hlatest, rfl, rfl, ?_⟩
  exact (change_of_arity _ _).1 _ _ hprevious hlatest rfl (by decide +kernel)

/-- A type that stands for an unexported struct, with type parameters of its own. -/
def boxRelease (params : Fields) : Package :=
  ⟨"box", [⟨"box.go", "box",
    [.type ⟨⟨"Box", none⟩, params, false, .ident ⟨"box", none⟩, ⟨"box.go", 3, 6⟩⟩,
      .type ⟨⟨"box", none⟩, [], false, .struct [], ⟨"box.go", 5, 6⟩⟩]⟩]⟩

/-- The type parameter of a type that stands for another one can be dropped without notice. -/
theorem diffTypes_box :
    ((boxRelease [⟨[⟨"T", none⟩], .ident ⟨"any", none⟩, none⟩]).resolve.types.map
      fun t => (t.name.name, Fields.arity t.typeParams)) = [("Box", 1), ("box", 0)] ∧
    ((boxRelease []).resolve.types.map
      fun t => (t.name.name, Fields.arity t.typeParams)) = [("Box", 0), ("box", 0)] ∧
    diffTypes (some (boxRelease [⟨[⟨"T", none⟩], .ident ⟨"any", none⟩, none⟩]).resolve)
      (some (boxRelease []).resolve) = [] := by
  decide +kernel

end GoSurface
