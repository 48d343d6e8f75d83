/-
# Pairing in one pass

The pairs of two lists can be built in one pass over each.  The first pass notes, for each key, the
place of the first entry of the first list that has it.  The second pass takes the entries of the
second list one by one.  An entry goes into the pair at the place noted for its key, and the key is
struck out; if there is no such place, the entry is added at the end.  Whatever keys are repeated, no
place is noted where there is no pair, and after each entry the pairs are those of the entries so far.

* `firstPlaces`, `placeEntry`, `pairInOnePass`: the passes, which could fail at a place without pair;
* `pairByKey_concat`: the pairs after one more entry;
* `Takes`, `naivePairs`: which places belong together, and the pairs by places;
* `pairInOnePass_eq_naivePairs`: the pass never fails, and gives the pairs by places.
-/
import GoSurface.Proofs.Partners
import Mathlib.Data.List.Induction

namespace GoSurface

section OnePass

variable {α κ : Type} [DecidableEq κ] {key : α → κ} {ps ls : List α}

/-! ## The passes -/

/-- The pair with an entry as its later side. -/
def Pair.withLatest (l : α) : Pair α → Pair α
  | .removed p => .both p l
  | .added _ => .added l
  | .both p _ => .both p l

/-- Notes the places of entries, counted from a number, unless their keys have a place already. -/
def notePlaces [Hashable κ] (key : α → κ) : Std.HashMap κ Nat → Nat → List α → Std.HashMap κ Nat
  | places, _, [] => places
  | places, i, p :: ps => notePlaces key (places.insertIfNew (key p) i) (i + 1) ps

/-- The place of the first entry with each key. -/
def firstPlaces [Hashable κ] (key : α → κ) (ps : List α) : Std.HashMap κ Nat :=
  notePlaces key ∅ 0 ps

/-- What becomes of the pairs and the places with one more entry; nothing if there is no pair at the
place that is noted for its key. -/
def placeEntry [Hashable κ] (key : α → κ) (s : List (Pair α) × Std.HashMap κ Nat) (l : α) :
    Option (List (Pair α) × Std.HashMap κ Nat) :=
  match s.2[key l]? with
  | some i =>
    if i < s.1.length then some (s.1.modify i (Pair.withLatest l), s.2.erase (key l)) else none
  | none => some (s.1 ++ [.added l], s.2)

/-- The pairs of two lists, in one pass over each. -/
def pairInOnePass [Hashable κ] (key : α → κ) (ps ls : List α) : Option (List (Pair α)) :=
  (ls.foldlM (placeEntry key) (ps.map Pair.removed, firstPlaces key ps)).map Prod.fst

/-! ## One more entry -/

theorem partner?_concat (ls : List α) (l p : α) :
    partner? key (ls ++ [l]) p = (partner? key ls p).or (if key l = key p then some l else none) := by
  rw [partner?, partner?, List.find?_append]
  by_cases hkey : key l = key p <;> simp [hkey]

/-- The pairs of the first list stay as they are if the new entry is nobody's partner. -/
theorem pairsOfPrevious_concat_of_idle {seen : List κ} {l : α}
    (h : ∀ p ∈ ps, key p = key l → key p ∈ seen ∨ key l ∈ ls.map key) :
    pairsOfPrevious key (ls ++ [l]) seen ps = pairsOfPrevious key ls seen ps := by
  induction ps generalizing seen with
  | nil => rfl
  | cons p ps ih =>
    obtain ⟨hp, hps⟩ := List.forall_mem_cons.mp h
    have htail := ih fun q hq hkey => (hps q hq hkey).imp_left (List.mem_cons_of_mem (key p))
    rw [pairsOfPrevious_cons, pairsOfPrevious_cons, htail]
    congr 1
    split
    · rfl
    · next hseen =>
      -- The entry has a partner among the old entries, or the new one has another key.
      have hpartner : partner? key (ls ++ [l]) p = partner? key ls p := by
        rw [partner?_concat]
        by_cases hkey : key l = key p
        · rcases hp hkey.symm with hmem | hmem
          · exact absurd hmem hseen
          · obtain ⟨l', hl', hkey'⟩ := List.mem_map.mp hmem
            obtain ⟨m, hm⟩ := exists_partner? hl' (hkey'.trans hkey)
            rw [hm, Option.some_or]
        · rw [if_neg hkey, Option.or_none]
      rw [pairWith, pairWith, hpartner]

/-- A new entry whose key is new in the second list goes into the pair of the first entry of the
first list with its key. -/
theorem pairsOfPrevious_concat_of_place {seen : List κ} {l : α} {i : Nat}
    (hseen : key l ∉ seen) (hnew : key l ∉ ls.map key)
    (hplace : ps.findIdx? (fun p => key p = key l) = some i) :
    pairsOfPrevious key (ls ++ [l]) seen ps =
      (pairsOfPrevious key ls seen ps).modify i (Pair.withLatest l) := by
  induction ps generalizing seen i with
  | nil => cases hplace
  | cons p ps ih =>
    rw [pairsOfPrevious_cons, pairsOfPrevious_cons]
    rw [List.findIdx?_cons] at hplace
    by_cases hkey : key p = key l
    · -- This is the place; the entries after it have seen the key.
      simp only [hkey, decide_true, if_true, Option.some.injEq] at hplace
      subst hplace
      have hnone : partner? key ls p = none := by
        cases hpartner : partner? key ls p with
        | none => rfl
        | some l' =>
          obtain ⟨hl', hkey'⟩ := mem_of_partner? hpartner
          exact absurd (List.mem_map.mpr ⟨l', hl', hkey'.trans hkey⟩) hnew
      have hfound : partner? key (ls ++ [l]) p = some l := by
        rw [partner?_concat, hnone, if_pos hkey.symm, Option.none_or]
      have htail : pairsOfPrevious key (ls ++ [l]) (key p :: seen) ps =
          pairsOfPrevious key ls (key p :: seen) ps :=
        pairsOfPrevious_concat_of_idle fun q _ hq =>
          Or.inl (hq.trans hkey.symm ▸ List.mem_cons_self)
      have hfresh : key p ∉ seen := hkey ▸ hseen
      rw [if_neg hfresh, if_neg hfresh, pairWith, pairWith, hnone, hfound, htail]
      rfl
    · have hrest : ∃ j, ps.findIdx? (fun p => key p = key l) = some j ∧ j + 1 = i := by
        simpa [hkey] using hplace
      obtain ⟨j, hj, rfl⟩ := hrest
      have hpartner : partner? key (ls ++ [l]) p = partner? key ls p := by
        rw [partner?_concat, if_neg (Ne.symm hkey), Option.or_none]
      have hfresh : key l ∉ key p :: seen := by
        rw [List.mem_cons, not_or]
        exact ⟨Ne.symm hkey, hseen⟩
      rw [ih hfresh hj, pairWith, pairWith, hpartner]
      rfl

/-- A new entry is added unless its key can be taken and has not come before. -/
theorem pairsOfLatest_concat (taken : List κ) (l : α) :
    pairsOfLatest key taken (ls ++ [l]) =
      pairsOfLatest key taken ls ++
        if key l ∈ taken ∧ key l ∉ ls.map key then [] else [.added l] := by
  induction ls generalizing taken with
  | nil => by_cases hl : key l ∈ taken <;> simp [pairsOfLatest, hl]
  | cons m ls ih =>
    rw [List.cons_append, pairsOfLatest, pairsOfLatest]
    by_cases hm : key m ∈ taken
    · have hiff : (key l ∈ taken.filter (· ≠ key m) ∧ key l ∉ ls.map key) ↔
          key l ∈ taken ∧ key l ∉ (m :: ls).map key := by
        simp [and_assoc]
      rw [if_pos hm, if_pos hm, ih, if_congr hiff rfl rfl]
    · have hiff : (key l ∈ taken ∧ key l ∉ ls.map key) ↔
          key l ∈ taken ∧ key l ∉ (m :: ls).map key := by
        have hne : key l ∈ taken → key l ≠ key m := fun hl hkey => hm (hkey ▸ hl)
        simpa using fun hl _ => hne hl
      rw [if_neg hm, if_neg hm, ih, if_congr hiff rfl rfl, List.cons_append]

/-- Each entry of the first list has one pair. -/
theorem length_pairsOfPrevious (seen : List κ) :
    (pairsOfPrevious key ls seen ps).length = ps.length := by
  induction ps generalizing seen with
  | nil => rfl
  | cons p ps ih => rw [pairsOfPrevious_cons, List.length_cons, ih, List.length_cons]

/-- Changing one of the first entries of a list. -/
theorem modify_append_of_lt {β : Type} {xs : List β} {i : Nat} (h : i < xs.length) (f : β → β)
    (ys : List β) : (xs ++ ys).modify i f = xs.modify i f ++ ys := by
  induction xs generalizing i with
  | nil => cases h
  | cons x xs ih =>
    cases i with
    | zero => rfl
    | succ i => exact congrArg (x :: ·) (ih (Nat.lt_of_succ_lt_succ h))

/-- **The pairs after one more entry.**  If its key is new in the second list and has a first place
in the first list, the entry goes into the pair there; otherwise it is added. -/
theorem pairByKey_concat (ps ls : List α) (l : α) :
    pairByKey key ps (ls ++ [l]) =
      match if key l ∈ ls.map key then none else ps.findIdx? (fun p => key p = key l) with
      | some i => (pairByKey key ps ls).modify i (Pair.withLatest l)
      | none => pairByKey key ps ls ++ [.added l] := by
  rw [pairByKey, pairByKey, pairsOfLatest_concat]
  by_cases hold : key l ∈ ls.map key
  · rw [pairsOfPrevious_concat_of_idle fun _ _ _ => Or.inr hold, if_pos hold,
      if_neg fun h => h.2 hold, List.append_assoc]
  · rw [if_neg hold]
    cases hplace : ps.findIdx? (fun p => key p = key l) with
    | none =>
      have hnone : ∀ p ∈ ps, key p ≠ key l := by simpa using hplace
      have hfree : key l ∉ ps.map key := by
        intro hmem
        obtain ⟨p, hp, hkey⟩ := List.mem_map.mp hmem
        exact hnone p hp hkey
      rw [pairsOfPrevious_concat_of_idle fun p hp hkey => absurd hkey (hnone p hp),
        if_neg fun h => hfree h.1, List.append_assoc]
    | some i =>
      obtain ⟨hi, hkey, -⟩ := List.findIdx?_eq_some_iff_getElem.mp hplace
      have htaken : key l ∈ ps.map key :=
        List.mem_map.mpr ⟨ps[i], List.getElem_mem hi, by simpa using hkey⟩
      rw [pairsOfPrevious_concat_of_place List.not_mem_nil hold hplace, if_pos ⟨htaken, hold⟩,
        List.append_nil]
      exact (modify_append_of_lt (by rwa [length_pairsOfPrevious]) _ _).symm

/-! ## The passes give the pairs -/

/-- Noting places keeps those there are and adds the first ones of other keys. -/
theorem getElem?_notePlaces [Hashable κ] (places : Std.HashMap κ Nat) (i : Nat) (ps : List α)
    (k : κ) : (notePlaces key places i ps)[k]? =
      places[k]?.or ((ps.findIdx? fun p => key p = k).map (i + ·)) := by
  induction ps generalizing places i with
  | nil => simp [notePlaces]
  | cons p ps ih =>
    rw [notePlaces, ih, Std.HashMap.getElem?_insertIfNew, List.findIdx?_cons]
    by_cases hkey : key p = k
    · subst hkey
      cases hold : places[key p]? with
      | none =>
        have hmem : key p ∉ places := by simpa using hold
        simp [hmem]
      | some j =>
        have hmem : key p ∈ places := by simp [Std.HashMap.mem_iff_isSome_getElem?, hold]
        simp [hmem]
    · have hshift : (fun j => i + 1 + j) = fun j => i + (j + 1) := by
        funext j
        omega
      simp [hkey, hshift, Function.comp_def]

/-- The place that is noted for a key is that of the first entry with it. -/
theorem getElem?_firstPlaces [Hashable κ] (ps : List α) (k : κ) :
    (firstPlaces key ps)[k]? = ps.findIdx? fun p => key p = k := by
  simp [firstPlaces, getElem?_notePlaces]

/-- **What holds after each entry**: the pairs are those of the entries so far, and the places are
those of the keys that have not come. -/
theorem foldlM_placeEntry [Hashable κ] (key : α → κ) (ps ls : List α) :
    ∃ places, ls.foldlM (placeEntry key) (ps.map Pair.removed, firstPlaces key ps) =
        some (pairByKey key ps ls, places) ∧
      ∀ k, places[k]? = if k ∈ ls.map key then none else ps.findIdx? fun p => key p = k := by
  induction ls using List.reverseRecOn with
  | nil =>
    have hstart : ∀ seen, pairsOfPrevious key [] seen ps = ps.map Pair.removed := by
      induction ps with
      | nil => exact fun _ => rfl
      | cons p ps ih => exact fun seen => by simp [pairsOfPrevious, ih]
    refine ⟨firstPlaces key ps, ?_, fun k => by simp [getElem?_firstPlaces]⟩
    rw [pairByKey, hstart, pairsOfLatest, List.append_nil]
    rfl
  | append_singleton ls l ih =>
    obtain ⟨places, hfold, hplaces⟩ := ih
    rw [List.foldlM_append, hfold, pairByKey_concat, ← hplaces]
    cases hplace : places[key l]? with
    | none =>
      refine ⟨places, by simp [placeEntry, hplace], fun k => ?_⟩
      by_cases hk : k = key l
      · subst hk
        simp [hplace]
      · simp [hplaces k, hk]
    | some i =>
      have hi : i < (pairByKey key ps ls).length := by
        rw [hplaces] at hplace
        split at hplace
        · cases hplace
        · obtain ⟨hi, -⟩ := List.findIdx?_eq_some_iff_getElem.mp hplace
          rw [pairByKey, List.length_append, length_pairsOfPrevious]
          omega
      refine ⟨places.erase (key l), by simp [placeEntry, hplace, hi], fun k => ?_⟩
      rw [Std.HashMap.getElem?_erase, hplaces]
      by_cases hk : k = key l
      · simp [hk]
      · simp [hk, Ne.symm hk]

/-! ## The pairs by places -/

/-- No entry before this place has the same key. -/
def FirstAt (key : α → κ) (xs : List α) (i : Nat) : Prop :=
  i < xs.length ∧ ∀ j < i, xs[j]?.map key ≠ xs[i]?.map key

/-- The entry at a place of the first list takes the one at a place of the second list: both are the
first ones with their key. -/
def Takes (key : α → κ) (ps ls : List α) (i j : Nat) : Prop :=
  FirstAt key ps i ∧ FirstAt key ls j ∧ ps[i]?.map key = ls[j]?.map key

instance (xs : List α) (i : Nat) : Decidable (FirstAt key xs i) :=
  inferInstanceAs (Decidable (i < xs.length ∧ ∀ j < i, xs[j]?.map key ≠ xs[i]?.map key))

instance (i j : Nat) : Decidable (Takes key ps ls i j) :=
  inferInstanceAs
    (Decidable (FirstAt key ps i ∧ FirstAt key ls j ∧ ps[i]?.map key = ls[j]?.map key))

/-- The pair of the entry at a place of the first list. -/
def naivePair (key : α → κ) (ps ls : List α) (p : α) (i : Nat) : Pair α :=
  match ls.zipIdx.find? fun x => Takes key ps ls i x.2 with
  | some (l, _) => .both p l
  | none => .removed p

/-- The pairs by places: for each entry of the first list what it takes, then the entries of the
second list that none takes. -/
def naivePairs (key : α → κ) (ps ls : List α) : List (Pair α) :=
  ps.zipIdx.map (fun x => naivePair key ps ls x.1 x.2) ++
    (ls.zipIdx.filter fun x => ∀ i < ps.length, ¬ Takes key ps ls i x.2).map
      fun x => Pair.added x.1

omit [DecidableEq κ] in
/-- An entry is the first with its key if the key does not come before it. -/
theorem firstAt_iff {xs : List α} {i : Nat} {a : α} (h : xs[i]? = some a) :
    FirstAt key xs i ↔ key a ∉ (xs.take i).map key := by
  obtain ⟨hi, -⟩ := List.getElem?_eq_some_iff.mp h
  rw [FirstAt, h]
  constructor
  · rintro ⟨-, hfirst⟩ hmem
    obtain ⟨b, hb, hkey⟩ := List.mem_map.mp hmem
    obtain ⟨j, hj⟩ := List.mem_iff_getElem?.mp hb
    rw [List.getElem?_take] at hj
    split at hj
    · next hji => exact hfirst j hji (by simp [hj, hkey])
    · cases hj
  · intro hfresh
    refine ⟨hi, fun j hj heq => hfresh ?_⟩
    obtain ⟨b, hb, hkey⟩ := Option.map_eq_some_iff.mp heq
    exact List.mem_map.mpr
      ⟨b, List.mem_iff_getElem?.mpr ⟨j, by rw [List.getElem?_take_of_lt hj, hb]⟩, hkey⟩

/-- The pair of each entry of the first list, by its place. -/
theorem getElem?_pairsOfPrevious (seen : List κ) (i : Nat) :
    (pairsOfPrevious key ls seen ps)[i]? = ps[i]?.map fun p =>
      if key p ∈ seen ∨ key p ∈ (ps.take i).map key then .removed p else pairWith key ls p := by
  induction ps generalizing seen i with
  | nil => rfl
  | cons p ps ih =>
    cases i with
    | zero => simp [pairsOfPrevious_cons]
    | succ i => simp [pairsOfPrevious_cons, ih, or_assoc, or_left_comm]

/-- Two searches find the same if one asks for more and the other finds what it asks for. -/
theorem find?_eq_of_first {β : Type} {q r : β → Bool} {xs : List β}
    (himp : ∀ x ∈ xs, q x = true → r x = true)
    (hfirst : ∀ x, xs.find? r = some x → q x = true) : xs.find? q = xs.find? r := by
  induction xs with
  | nil => rfl
  | cons x xs ih =>
    cases hr : r x with
    | true =>
      have hq : q x = true := hfirst x (List.find?_cons_of_pos hr)
      rw [List.find?_cons_of_pos hq, List.find?_cons_of_pos hr]
    | false =>
      have hnr : ¬ r x = true := by simp [hr]
      have hnq : ¬ q x = true := fun hq => hnr (himp x List.mem_cons_self hq)
      rw [List.find?_cons_of_neg hnq, List.find?_cons_of_neg hnr]
      refine ih (fun y hy => himp y (List.mem_cons_of_mem x hy)) fun y hy => hfirst y ?_
      rw [List.find?_cons_of_neg hnr, hy]

omit [DecidableEq κ] in
theorem takes_iff {i j : Nat} {p l : α} (hp : ps[i]? = some p) (hl : ls[j]? = some l) :
    Takes key ps ls i j ↔ FirstAt key ps i ∧ FirstAt key ls j ∧ key l = key p := by
  rw [Takes, hp, hl, Option.map_some, Option.map_some, Option.some.injEq, eq_comm (a := key p)]

/-- The place where an entry's partner stands is the first with its key. -/
theorem firstAt_of_find? {p l : α} {j : Nat}
    (h : ls.zipIdx.find? (fun x => key x.1 = key p) = some (l, j)) : FirstAt key ls j := by
  obtain ⟨hkey, k, hk, hentry, hbefore⟩ := List.find?_eq_some_iff_getElem.mp h
  have hlength : k < ls.length := by simpa using hk
  obtain ⟨rfl, rfl⟩ : ls[k] = l ∧ k = j := by simpa using hentry
  rw [firstAt_iff (List.getElem?_eq_getElem hlength)]
  intro hmem
  obtain ⟨m, hm, hmkey⟩ := List.mem_map.mp hmem
  obtain ⟨n, hn, rfl⟩ := List.mem_take_iff_getElem.mp hm
  have hother : key ls[n] ≠ key p := by simpa using hbefore n (by omega)
  exact hother (hmkey.trans (by simpa using hkey))

/-- The first entry with a key takes its partner. -/
theorem find?_takes {i : Nat} {p : α} (hp : ps[i]? = some p) (hfirst : FirstAt key ps i) :
    (ls.zipIdx.find? fun x => Takes key ps ls i x.2).map Prod.fst = partner? key ls p := by
  have hsame : (ls.zipIdx.find? fun x => Takes key ps ls i x.2) =
      ls.zipIdx.find? fun x => key x.1 = key p := by
    apply find?_eq_of_first
    · rintro ⟨l, j⟩ hmem htakes
      have hl := List.mem_zipIdx_iff_getElem?.mp hmem
      exact decide_eq_true ((takes_iff hp hl).mp (of_decide_eq_true htakes)).2.2
    · rintro ⟨l, j⟩ hfind
      have hl := List.mem_zipIdx_iff_getElem?.mp (List.mem_of_find?_eq_some hfind)
      have hkey : key l = key p := by simpa using List.find?_some hfind
      exact decide_eq_true ((takes_iff hp hl).mpr ⟨hfirst, firstAt_of_find? hfind, hkey⟩)
  have hmap : partner? key ls p =
      (ls.zipIdx.find? fun x => key x.1 = key p).map Prod.fst := by
    conv_lhs => rw [partner?, ← List.zipIdx_map_fst 0 ls, List.find?_map]
    rfl
  rw [hsame, hmap]

/-- The pairs of the first list, by places. -/
theorem pairsOfPrevious_eq_naivePair (key : α → κ) (ps ls : List α) :
    pairsOfPrevious key ls [] ps = ps.zipIdx.map fun x => naivePair key ps ls x.1 x.2 := by
  apply List.ext_getElem?
  intro i
  rw [getElem?_pairsOfPrevious, List.getElem?_map, List.getElem?_zipIdx, Option.map_map]
  cases hp : ps[i]? with
  | none => rfl
  | some p =>
    have hpair : naivePair key ps ls p i =
        if key p ∈ (ps.take i).map key then .removed p else pairWith key ls p := by
      rw [naivePair]
      by_cases hfirst : FirstAt key ps i
      · rw [if_neg ((firstAt_iff hp).mp hfirst), pairWith, ← find?_takes hp hfirst]
        cases ls.zipIdx.find? (fun x => Takes key ps ls i x.2) <;> rfl
      · have hnone : (ls.zipIdx.find? fun x => Takes key ps ls i x.2) = none := by
          simpa using fun l j _ (htakes : Takes key ps ls i j) => hfirst htakes.1
        rw [hnone, if_pos (not_not.mp (mt (firstAt_iff hp).mpr hfirst))]
    simp [hpair]

/-- An entry of the second list is taken if it is the first with its key and the first list has the
key. -/
theorem exists_takes_iff {j : Nat} {l : α} (hl : ls[j]? = some l) :
    (∃ i < ps.length, Takes key ps ls i j) ↔ FirstAt key ls j ∧ key l ∈ ps.map key := by
  constructor
  · rintro ⟨i, hi, htakes⟩
    obtain ⟨-, hfirst, hkey⟩ := (takes_iff (List.getElem?_eq_getElem hi) hl).mp htakes
    exact ⟨hfirst, List.mem_map.mpr ⟨ps[i], List.getElem_mem hi, hkey.symm⟩⟩
  · rintro ⟨hfirst, hmem⟩
    -- The first place of the key in the first list.
    obtain ⟨p, hp, hkey⟩ := List.mem_map.mp hmem
    obtain ⟨x, hx⟩ : ∃ x, ps.zipIdx.find? (fun x => key x.1 = key p) = some x := by
      rw [← Option.isSome_iff_exists, List.find?_isSome]
      obtain ⟨i, hi⟩ := List.mem_iff_getElem?.mp hp
      exact ⟨(p, i), List.mem_zipIdx_iff_getElem?.mpr hi, by simp⟩
    have hi := List.mem_zipIdx_iff_getElem?.mp (List.mem_of_find?_eq_some hx)
    have hxkey : key x.1 = key p := by simpa using List.find?_some hx
    exact ⟨x.2, (List.getElem?_eq_some_iff.mp hi).1,
      (takes_iff hi hl).mpr ⟨firstAt_of_find? hx, hfirst, (hxkey.trans hkey).symm⟩⟩

/-- The entries of the second list that are added, by places. -/
theorem pairsOfLatest_eq_filter (key : α → κ) (ps ls : List α) :
    pairsOfLatest key (ps.map key) ls =
      (ls.zipIdx.filter fun x => ∀ i < ps.length, ¬ Takes key ps ls i x.2).map
        fun x => Pair.added x.1 := by
  have huntaken : ∀ {ls : List α} {x : α × Nat}, x ∈ ls.zipIdx →
      ((∀ i < ps.length, ¬ Takes key ps ls i x.2) ↔
        ¬ (key x.1 ∈ ps.map key ∧ key x.1 ∉ (ls.take x.2).map key)) := by
    intro ls x hx
    have hl := List.mem_zipIdx_iff_getElem?.mp hx
    rw [← firstAt_iff hl, and_comm, ← exists_takes_iff hl]
    simp
  induction ls using List.reverseRecOn with
  | nil => rfl
  | append_singleton ls l ih =>
    have hlast : (l, ls.length) ∈ (ls ++ [l]).zipIdx := by simp [List.zipIdx_append]
    have hold : ls.zipIdx.filter (fun x => ∀ i < ps.length, ¬ Takes key ps (ls ++ [l]) i x.2) =
        ls.zipIdx.filter fun x => ∀ i < ps.length, ¬ Takes key ps ls i x.2 := by
      apply List.filter_congr
      intro x hx
      obtain ⟨hlt, -⟩ := List.getElem?_eq_some_iff.mp (List.mem_zipIdx_iff_getElem?.mp hx)
      have hx' : x ∈ (ls ++ [l]).zipIdx := by
        rw [List.zipIdx_append]
        exact List.mem_append_left _ hx
      rw [decide_eq_decide, huntaken hx, huntaken hx', List.take_append_of_le_length (Nat.le_of_lt hlt)]
    rw [pairsOfLatest_concat, ih, List.zipIdx_append, List.filter_append, List.map_append, hold]
    congr 1
    have hnew := huntaken hlast
    rw [List.take_left] at hnew
    rw [List.zipIdx_singleton, List.filter_singleton, Nat.zero_add]
    by_cases htaken : key l ∈ ps.map key ∧ key l ∉ ls.map key
    · rw [if_pos htaken, decide_eq_false (mt hnew.mp (not_not_intro htaken))]
      rfl
    · rw [if_neg htaken, decide_eq_true (hnew.mpr htaken)]
      rfl

/-- The later sides of pairs are those of what is added and of partners. -/
theorem latest_perm (xs : List (Pair α)) :
    (xs.filterMap Pair.latest?).Perm
      (xs.filterMap Pair.added? ++ (xs.filterMap Pair.partners?).map Prod.snd) := by
  induction xs with
  | nil => exact List.Perm.refl _
  | cons x xs ih =>
    cases x with
    | removed p => exact ih
    | added l => exact ih.cons l
    | both p l => exact (ih.cons l).trans List.perm_middle.symm

/-- The earlier sides of pairs are those of what is removed and of partners. -/
theorem previous_perm (xs : List (Pair α)) :
    (xs.filterMap Pair.previous?).Perm
      (xs.filterMap Pair.removed? ++ (xs.filterMap Pair.partners?).map Prod.fst) := by
  induction xs with
  | nil => exact List.Perm.refl _
  | cons x xs ih =>
    cases x with
    | removed p => exact ih.cons p
    | added l => exact ih
    | both p l => exact (ih.cons p).trans List.perm_middle.symm

/-- Every entry of the second list stands in the pairs once. -/
theorem latest_pairByKey_perm (key : α → κ) (ps ls : List α) :
    ((pairByKey key ps ls).filterMap Pair.latest?).Perm ls := by
  -- Seen in the other direction, these are the entries of the first list.
  have hpartners := (partners_pairByKey_swap key ps ls).map Prod.fst
  rw [List.map_map] at hpartners
  have hsides := (latest_perm (pairByKey key ps ls)).trans (hpartners.append_left _)
  rw [added_pairByKey_swap key ls ps] at hsides
  have hback := previous_perm (pairByKey key ls ps)
  rw [previous_pairByKey] at hback
  exact hsides.trans hback.symm

/-- **Pairing in one pass never fails and gives the pairs by places**, whatever keys are repeated:
for each entry of the first list, in order, the first entry of the second list with its key if no
entry before it has the key, and then, in order, the entries of the second list that are not taken in
this way.  So every entry of either list stands in one pair, and partners have one key. -/
theorem pairInOnePass_eq_naivePairs [Hashable κ] (key : α → κ) (ps ls : List α) :
    pairInOnePass key ps ls = some (pairByKey key ps ls) ∧
      pairByKey key ps ls = naivePairs key ps ls ∧
      (pairByKey key ps ls).filterMap Pair.previous? = ps ∧
      ((pairByKey key ps ls).filterMap Pair.latest?).Perm ls ∧
      ∀ x ∈ pairByKey key ps ls, ∀ p ∈ x.previous?, ∀ l ∈ x.latest?, key p = key l := by
  refine ⟨?_, ?_, previous_pairByKey key ps ls, latest_pairByKey_perm key ps ls, ?_⟩
  · obtain ⟨places, hfold, -⟩ := foldlM_placeEntry key ps ls
    rw [pairInOnePass, hfold, Option.map_some]
  · rw [pairByKey, naivePairs, pairsOfPrevious_eq_naivePair, pairsOfLatest_eq_filter]
  · intro x hx p hp l hl
    cases x with
    | removed q => cases hl
    | added m => cases hp
    | both q m =>
      obtain rfl : q = p := by simpa [Pair.previous?] using hp
      obtain rfl : m = l := by simpa [Pair.latest?] using hl
      exact (key_eq_of_both_mem hx).symm

/-- Keys that are repeated on both sides. -/
example : naivePairs (fun n : Nat => n % 10) [1, 2, 11] [3, 21, 31] =
    [.both 1 21, .removed 2, .removed 11, .added 3, .added 31] := rfl

end OnePass

end GoSurface
