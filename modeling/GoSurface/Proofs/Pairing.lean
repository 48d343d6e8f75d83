/-
# What pairing by key gives

Every entry of the first list is paired with the first entry of the second list that has its key,
unless an entry before it had that key too.  Repeated keys therefore always show: on the first side
as removals, on the second side as additions.

* `partner?`: the entry that an entry of the first list may be paired with;
* `keys_of_removals`: if only entries with certain keys are removed, all other keys are distinct
  and have partners;
* `pairsOfPrevious_of_nodup`: with distinct keys every entry is paired with its partner;
* `pairsOfLatest_eq_nil_iff`: when nothing is added.
-/
import GoSurface.Compare.Pairing
import Mathlib.Data.List.Nodup

namespace GoSurface

section Pairing

variable {α κ : Type} [DecidableEq κ] {key : α → κ} {ps ls : List α}

/-! ## Partners -/

/-- The first entry of a list with the key of a given entry. -/
def partner? (key : α → κ) (ls : List α) (p : α) : Option α :=
  ls.find? (fun l => key l = key p)

/-- A partner is an entry of the list with the same key. -/
theorem mem_of_partner? {p l : α} (h : partner? key ls p = some l) : l ∈ ls ∧ key l = key p := by
  refine ⟨List.mem_of_find?_eq_some h, ?_⟩
  simpa using List.find?_some h

/-- An entry whose key occurs in the list has a partner. -/
theorem exists_partner? {p l : α} (hl : l ∈ ls) (hkey : key l = key p) :
    ∃ l', partner? key ls p = some l' := by
  rw [← Option.isSome_iff_exists, partner?, List.find?_isSome]
  exact ⟨l, hl, by simpa using hkey⟩

theorem partner?_congr {p q : α} (h : key p = key q) : partner? key ls p = partner? key ls q := by
  rw [partner?, partner?, h]

/-- Among distinct keys, the partner is the only entry with the key. -/
theorem partner?_eq_some_of_nodup (hnodup : (ls.map key).Nodup) {p l : α} (hl : l ∈ ls)
    (hkey : key l = key p) : partner? key ls p = some l := by
  obtain ⟨l', hl'⟩ := exists_partner? hl hkey
  obtain ⟨hmem, hkey'⟩ := mem_of_partner? hl'
  rw [hl', List.inj_on_of_nodup_map hnodup hmem hl (hkey'.trans hkey.symm)]

/-! ## The entries of the first list -/

/-- The pair that an entry of the first list is put in, if its key has not been seen before. -/
def pairWith (key : α → κ) (ls : List α) (p : α) : Pair α :=
  match partner? key ls p with
  | some l => .both p l
  | none => .removed p

theorem pairsOfPrevious_cons (seen : List κ) (p : α) :
    pairsOfPrevious key ls seen (p :: ps) =
      (if key p ∈ seen then Pair.removed p else pairWith key ls p) ::
        pairsOfPrevious key ls (key p :: seen) ps := rfl

/-- If all removed entries have keys of some kind, then every other entry has a key not seen
before, unlike those of the entries before it, and is paired with its partner. -/
theorem keys_of_removals (lost : κ → Prop) {seen : List κ}
    (h : ∀ p, Pair.removed p ∈ pairsOfPrevious key ls seen ps → lost (key p)) :
    ps.Pairwise (fun p q => key p = key q → lost (key p)) ∧
      ∀ p ∈ ps, ¬ lost (key p) → key p ∉ seen ∧
        ∃ l, partner? key ls p = some l ∧ Pair.both p l ∈ pairsOfPrevious key ls seen ps := by
  induction ps generalizing seen with
  | nil => simp
  | cons p ps ih =>
    simp only [pairsOfPrevious_cons, List.mem_cons] at h ⊢
    obtain ⟨hpairwise, hkept⟩ := ih fun q hq => h q (Or.inr hq)
    constructor
    · refine List.pairwise_cons.mpr ⟨?_, hpairwise⟩
      intro q hq hkey
      by_contra hlost
      exact (hkept q hq (hkey ▸ hlost)).1 (by simp [hkey])
    · rintro q (rfl | hq) hlost
      · have hseen : key q ∉ seen := by
          intro hmem
          exact hlost (h q (Or.inl (by rw [if_pos hmem])))
        refine ⟨hseen, ?_⟩
        rw [if_neg hseen] at h ⊢
        cases hpartner : partner? key ls q with
        | none => exact absurd (h q (Or.inl (by simp [pairWith, hpartner]))) hlost
        | some l => exact ⟨l, rfl, Or.inl (by simp [pairWith, hpartner])⟩
      · obtain ⟨hseen, l, hl, hboth⟩ := hkept q hq hlost
        exact ⟨fun hmem => hseen (by simp [hmem]), l, hl, Or.inr hboth⟩

/-- With distinct keys, every entry is paired with its partner or removed if it has none. -/
theorem pairsOfPrevious_of_nodup {seen : List κ} (hnodup : (ps.map key).Nodup)
    (hseen : ∀ p ∈ ps, key p ∉ seen) :
    pairsOfPrevious key ls seen ps = ps.map (pairWith key ls) := by
  induction ps generalizing seen with
  | nil => rfl
  | cons p ps ih =>
    rw [List.map_cons, List.nodup_cons] at hnodup
    rw [pairsOfPrevious_cons, if_neg (hseen p (by simp)), List.map_cons, ih hnodup.2]
    intro q hq hmem
    rcases List.mem_cons.mp hmem with hkey | hmem
    · exact hnodup.1 (hkey ▸ List.mem_map_of_mem hq)
    · exact hseen q (by simp [hq]) hmem

/-! ## The entries of the second list -/

/-- What is left of the second list is added. -/
theorem mem_pairsOfLatest {taken : List κ} {x : Pair α} (h : x ∈ pairsOfLatest key taken ls) :
    ∃ l ∈ ls, x = .added l := by
  induction ls generalizing taken with
  | nil => simp [pairsOfLatest] at h
  | cons l ls ih =>
    unfold pairsOfLatest at h
    split at h
    · obtain ⟨l', hl', hx⟩ := ih h
      exact ⟨l', by simp [hl'], hx⟩
    · rcases List.mem_cons.mp h with hx | h
      · exact ⟨l, by simp, hx⟩
      · obtain ⟨l', hl', hx⟩ := ih h
        exact ⟨l', by simp [hl'], hx⟩

/-- Nothing is added exactly when the keys of the second list are distinct and all taken. -/
theorem pairsOfLatest_eq_nil_iff {taken : List κ} :
    pairsOfLatest key taken ls = [] ↔ (ls.map key).Nodup ∧ ∀ l ∈ ls, key l ∈ taken := by
  induction ls generalizing taken with
  | nil => simp [pairsOfLatest]
  | cons l ls ih =>
    rw [pairsOfLatest]
    by_cases hl : key l ∈ taken
    · -- The key is used up, so it must not come again.
      rw [if_pos hl, ih, List.map_cons, List.nodup_cons]
      constructor
      · rintro ⟨hnodup, hrest⟩
        refine ⟨⟨?_, hnodup⟩, ?_⟩
        · intro hmem
          obtain ⟨l', hl', hkey⟩ := List.mem_map.mp hmem
          have hleft := hrest l' hl'
          simp [hkey] at hleft
        · intro l' hl'
          rcases List.mem_cons.mp hl' with rfl | hl'
          · exact hl
          · exact (List.mem_filter.mp (hrest l' hl')).1
      · rintro ⟨⟨hfresh, hnodup⟩, htaken⟩
        refine ⟨hnodup, fun l' hl' => List.mem_filter.mpr ⟨htaken l' (by simp [hl']), ?_⟩⟩
        have hne : key l' ≠ key l := fun hkey => hfresh (hkey ▸ List.mem_map_of_mem hl')
        simpa using hne
    · rw [if_neg hl]
      simp [hl]

/-! ## Entries replaced -/

/-- A pair with its entries replaced. -/
def Pair.map (f : α → α) : Pair α → Pair α
  | .removed p => .removed (f p)
  | .added l => .added (f l)
  | .both p l => .both (f p) (f l)

/-- A pair with the entries of each side replaced in their own way. -/
def Pair.mapSides (f g : α → α) : Pair α → Pair α
  | .removed p => .removed (f p)
  | .added l => .added (g l)
  | .both p l => .both (f p) (g l)

/-- Replacing entries on both sides replaces them in the pairs of the first list. -/
theorem pairsOfPrevious_mapSides {f g : α → α} (hf : ∀ a, key (f a) = key a)
    (hg : ∀ a, key (g a) = key a) (seen : List κ) (ps ls : List α) :
    pairsOfPrevious key (ls.map g) seen (ps.map f) =
      (pairsOfPrevious key ls seen ps).map (Pair.mapSides f g) := by
  induction ps generalizing seen with
  | nil => rfl
  | cons p ps ih =>
    have hfind : ((fun l => decide (key l = key p)) ∘ g) = fun l => decide (key l = key p) := by
      funext l
      simp [hg]
    simp only [List.map_cons, pairsOfPrevious, hf, ih, List.find?_map, hfind]
    congr 1
    split
    · rfl
    · cases ls.find? fun l => decide (key l = key p) <;> rfl

/-- Replacing entries replaces them among those that are added. -/
theorem pairsOfLatest_mapSides {g : α → α} (hg : ∀ a, key (g a) = key a) (f : α → α)
    (taken : List κ) (ls : List α) :
    pairsOfLatest key taken (ls.map g) = (pairsOfLatest key taken ls).map (Pair.mapSides f g) := by
  induction ls generalizing taken with
  | nil => rfl
  | cons l ls ih =>
    simp only [List.map_cons, pairsOfLatest, hg, ih]
    split <;> rfl

/-- Replacing entries by others with their keys, on each side in its own way, replaces them in the
pairs. -/
theorem pairByKey_mapSides {f g : α → α} (hf : ∀ a, key (f a) = key a)
    (hg : ∀ a, key (g a) = key a) (ps ls : List α) :
    pairByKey key (ps.map f) (ls.map g) = (pairByKey key ps ls).map (Pair.mapSides f g) := by
  have hkeys : key ∘ f = key := by
    funext a
    exact hf a
  rw [pairByKey, pairByKey, List.map_append, pairsOfPrevious_mapSides hf hg, List.map_map, hkeys,
    pairsOfLatest_mapSides hg f]

/-- Replacing entries by others with their keys replaces them in the pairs. -/
theorem pairByKey_map {f : α → α} (hkey : ∀ a, key (f a) = key a) (ps ls : List α) :
    pairByKey key (ps.map f) (ls.map f) = (pairByKey key ps ls).map (Pair.map f) := by
  have hsides : Pair.mapSides f f = Pair.map f := by
    funext x
    cases x <;> rfl
  rw [pairByKey_mapSides hkey hkey, hsides]

end Pairing

end GoSurface
