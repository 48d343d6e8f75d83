/-
# Pairing two revisions

The entries of two lists are paired by key: each entry of the first list, in order, with its
partner in the second one if it has one, then the entries of the second list that are new.  Of
several entries with one key, the first on each side are partners.

* `pairByKey` builds the pairs;
* `Pair.previous?`, `Pair.latest?` give its two sides.
-/

namespace GoSurface

/-- An entry on one side or on both. -/
inductive Pair (α : Type) where
  | removed (previous : α)
  | added (latest : α)
  | both (previous latest : α)

namespace Pair

variable {α : Type}

/-- The side of the first list. -/
def previous? : Pair α → Option α
  | removed p => some p
  | added _ => none
  | both p _ => some p

/-- The side of the second list. -/
def latest? : Pair α → Option α
  | removed _ => none
  | added l => some l
  | both _ l => some l

end Pair

section Pairing

variable {α κ : Type} [DecidableEq κ]

/-- The partner of each entry of the first list: an entry takes the first entry of the second
list with its key, unless an entry before it had the same key. -/
def pairsOfPrevious (key : α → κ) (latest : List α) : List κ → List α → List (Pair α)
  | _, [] => []
  | seen, p :: ps =>
    let pair :=
      if key p ∈ seen then Pair.removed p
      else match latest.find? (fun l => key l = key p) with
        | some l => Pair.both p l
        | none => Pair.removed p
    pair :: pairsOfPrevious key latest (key p :: seen) ps

/-- The entries of the second list that nothing in the first list takes. -/
def pairsOfLatest (key : α → κ) (taken : List κ) : List α → List (Pair α)
  | [] => []
  | l :: ls =>
    if key l ∈ taken then pairsOfLatest key (taken.filter (· ≠ key l)) ls
    else Pair.added l :: pairsOfLatest key taken ls

/-- Pairs the entries of two lists by key, the first list's order first. -/
def pairByKey (key : α → κ) (previous latest : List α) : List (Pair α) :=
  pairsOfPrevious key latest [] previous ++ pairsOfLatest key (previous.map key) latest

end Pairing

end GoSurface
