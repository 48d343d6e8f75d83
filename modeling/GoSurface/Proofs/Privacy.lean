/-
# What stays private

Unexported declarations reach a comparison in three ways: they give names to what references stand
for, they number constants, and they may be what an exported name is another name of.  Nothing else
about them matters, neither their signatures, types and values, nor their places, order or number.

* `Package.SameOutside`: packages that agree on what is exported and on these three;
* `comparePackages_eq_of_sameOutside`: such packages cannot be told apart.
-/
import GoSurface.Proofs.Binding
import GoSurface.Proofs.Following
import GoSurface.Proofs.Partners

namespace GoSurface

/-! ## Packages that look alike from outside -/

/-- Two packages agree on what other packages see, on what names stand for, and on the types that
exported types are other names of. -/
structure Package.SameOutside (p q : Package) : Prop where
  name : p.name = q.name
  firstFile : p.files.head?.map File.name = q.files.head?.map File.name
  scope : ∀ name, p.scope.lookup name = q.scope.lookup name
  values : exportedValues (some p) = exportedValues (some q)
  funcs : exportedFuncs (some p) = exportedFuncs (some q)
  types : exportedTypes (some p) = exportedTypes (some q)
  reached : ∀ t ∈ exportedTypes (some p.resolve), ∀ name, p.resolve.Reaches t.type name →
    p.resolve.typeSpec? name = q.resolve.typeSpec? name

namespace Package.SameOutside

variable {p q : Package}

/-- The same constants and variables are extracted. -/
theorem exportedValues_eq (h : p.SameOutside q) :
    exportedValues (some p.resolve) = exportedValues (some q.resolve) := by
  have hresolve : ValueSpec.resolve p.scope = ValueSpec.resolve q.scope := by
    funext v
    rw [ValueSpec.resolve, ValueSpec.resolve, Scope.bind_eq_of_lookup h.scope]
  rw [exportedValues_resolve, exportedValues_resolve, h.values, hresolve]

/-- The same functions are extracted. -/
theorem exportedFuncs_eq (h : p.SameOutside q) :
    exportedFuncs (some p.resolve) = exportedFuncs (some q.resolve) := by
  have hresolve : FuncDecl.resolve p.scope = FuncDecl.resolve q.scope := by
    funext f
    rw [FuncDecl.resolve, FuncDecl.resolve, Scope.bind_eq_of_lookup h.scope]
  rw [exportedFuncs_resolve, exportedFuncs_resolve, h.funcs, hresolve]

/-- The same types are extracted. -/
theorem exportedTypes_eq (h : p.SameOutside q) :
    exportedTypes (some p.resolve) = exportedTypes (some q.resolve) := by
  have hresolve : TypeSpec.resolve p.scope = TypeSpec.resolve q.scope := by
    funext t
    rw [TypeSpec.resolve, TypeSpec.resolve, Scope.bind_eq_of_lookup h.scope]
  rw [exportedTypes_resolve, exportedTypes_resolve, h.types, hresolve]

theorem follow_eq (h : p.SameOutside q) {t : TypeSpec} (ht : t ∈ exportedTypes (some p.resolve)) :
    p.resolve.follow t = q.resolve.follow t :=
  follow_congr (h.reached t ht)

theorem snippet_eq (h : p.SameOutside q) : p.resolve.snippet = q.resolve.snippet := by
  rw [snippet_resolve, snippet_resolve, Package.snippet, Package.snippet, h.name]
  exact congrArg _ h.firstFile

/-- Types are compared alike as the earlier ones. -/
theorem diffTypes_left (h : p.SameOutside q) (r : Option Package) :
    diffTypes (some p.resolve) r = diffTypes (some q.resolve) r := by
  rw [diffTypes, diffTypes, ← h.exportedTypes_eq]
  refine List.filterMap_congr fun x hx => ?_
  cases x with
  | both t u =>
    have ht := (sides_of_mem_pairByKey hx).1 t rfl
    cases r with
    | none => rfl
    | some r => simp only [typeChange, TypeSpec.difference?, h.follow_eq ht]
  | _ => rfl

/-- Types are compared alike as the later ones. -/
theorem diffTypes_right (h : p.SameOutside q) (r : Option Package) :
    diffTypes r (some p.resolve) = diffTypes r (some q.resolve) := by
  rw [diffTypes, diffTypes, ← h.exportedTypes_eq]
  refine List.filterMap_congr fun x hx => ?_
  cases x with
  | both t u =>
    have hu := (sides_of_mem_pairByKey hx).2 u rfl
    cases r with
    | none => rfl
    | some r => simp only [typeChange, TypeSpec.difference?, h.follow_eq hu]
  | _ => rfl

end Package.SameOutside

/-- **Privacy.**  Packages that agree on what is exported, on what names stand for and on the types
behind exported names cannot be told apart by comparing them with anything. -/
theorem comparePackages_eq_of_sameOutside {p q : Package} (h : p.SameOutside q)
    (r : Option Package) :
    comparePackages (some p.resolve) r = comparePackages (some q.resolve) r ∧
      comparePackages r (some p.resolve) = comparePackages r (some q.resolve) := by
  have hleft : diffPresence (some p.resolve) r = diffPresence (some q.resolve) r := by
    cases r <;> simp [diffPresence, h.snippet_eq]
  have hright : diffPresence r (some p.resolve) = diffPresence r (some q.resolve) := by
    cases r <;> simp [diffPresence, h.snippet_eq]
  constructor
  · rw [comparePackages, comparePackages, hleft, h.diffTypes_left, diffValues, diffValues,
      diffFunctions, diffFunctions, h.exportedValues_eq, h.exportedFuncs_eq]
  · rw [comparePackages, comparePackages, hright, h.diffTypes_right, diffValues, diffValues,
      diffFunctions, diffFunctions, h.exportedValues_eq, h.exportedFuncs_eq]

/-- A package whose exported type is another name of an unexported struct, with further
declarations before and after the struct. -/
def priceRelease (fields : List String) (before after : List Decl) : Package :=
  ⟨"shop", [⟨"shop.go", "shop",
    .type ⟨⟨"Price", none⟩, [], true, .ident ⟨"amount", none⟩, ⟨"shop.go", 3, 6⟩⟩ :: before⟩,
    ⟨"amount.go", "shop",
    .type ⟨⟨"amount", none⟩, [], false,
      .struct [⟨fields.map (⟨·, none⟩), .ident ⟨"int", none⟩, none⟩], ⟨"amount.go", 3, 6⟩⟩ ::
    after⟩]⟩

/-- An unexported function. -/
def roundUp (params : Fields) (line : Nat) : Decl :=
  .func ⟨none, ⟨"roundUp", none⟩, ⟨[], params, []⟩, ⟨"amount.go", line, 1⟩⟩

/-- An unexported method. -/
def amountHalve : Decl :=
  .func ⟨some [⟨[], .ident ⟨"amount", none⟩, none⟩], ⟨"halve", none⟩, ⟨[], [], []⟩,
    ⟨"amount.go", 9, 1⟩⟩

/-- An unexported function takes a parameter and moves to another place, and an unexported method
is new.  What the exported name stands for is still compared. -/
theorem comparePackages_eq_of_private_changes :
    (priceRelease ["Cents"] [roundUp [] 5] []).SameOutside (priceRelease ["Cents"] []
      [amountHalve, roundUp [⟨[], .ident ⟨"amount", none⟩, none⟩] 12]) ∧
    comparePackages (some (priceRelease ["Cents"] [roundUp [] 5] []).resolve)
        (some (priceRelease ["Cents", "Units"] [] []).resolve) =
      comparePackages (some (priceRelease ["Cents"] []
          [amountHalve, roundUp [⟨[], .ident ⟨"amount", none⟩, none⟩] 12]).resolve)
        (some (priceRelease ["Cents", "Units"] [] []).resolve) ∧
    (comparePackages (some (priceRelease ["Cents"] [roundUp [] 5] []).resolve)
      (some (priceRelease ["Cents", "Units"] [] []).resolve)).map Change.reason =
        [.fieldsAppended] := by
  have hsame : (priceRelease ["Cents"] [roundUp [] 5] []).SameOutside (priceRelease ["Cents"] []
      [amountHalve, roundUp [⟨[], .ident ⟨"amount", none⟩, none⟩] 12]) := by
    refine ⟨rfl, rfl, fun name => ?_, rfl, rfl, rfl, ?_⟩
    · -- The names come in another order, but each is declared once.
      have hscope : (priceRelease ["Cents"] [roundUp [] 5] []).scope =
          [("amount", ⟨.type, "amount", none⟩), ("roundUp", ⟨.function, "roundUp", none⟩),
            ("Price", ⟨.type, "Price", none⟩)] := rfl
      have hscope' : (priceRelease ["Cents"] []
            [amountHalve, roundUp [⟨[], .ident ⟨"amount", none⟩, none⟩] 12]).scope =
          [("roundUp", ⟨.function, "roundUp", none⟩), ("amount", ⟨.type, "amount", none⟩),
            ("Price", ⟨.type, "Price", none⟩)] := rfl
      rw [hscope, hscope']
      by_cases hname : name = "amount"
      · subst hname
        rfl
      · have hne : (name == "amount") = false := beq_eq_false_iff_ne.mpr hname
        simp only [List.lookup_cons, hne]
    · intro t ht name hreach
      obtain rfl : t = ⟨⟨"Price", some ⟨.type, "Price", none⟩⟩, [], true,
          .ident ⟨"amount", some ⟨.type, "amount", none⟩⟩, ⟨"shop.go", 3, 6⟩⟩ :=
        List.mem_singleton.mp ht
      cases hreach with
      | here h =>
        obtain rfl := Option.some.inj h
        rfl
      | hop h hfind hrest =>
        -- The struct leads nowhere.
        obtain rfl := Option.some.inj h
        obtain rfl := Option.some.inj hfind
        cases hrest with
        | here h => cases h
        | hop h => cases h
  exact ⟨hsame, (comparePackages_eq_of_sameOutside hsame _).1, by decide +kernel⟩

end GoSurface
