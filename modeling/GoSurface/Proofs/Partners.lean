/-
# Laws of pairing

Pairing two lists by key treats them alike, although it walks along the first one: what is removed
in one direction is added in the other, and partners stay partners.  Every entry stands in exactly
one pair, and of the entries with one key at most one on each side has a partner.

* `previous_pairByKey`: the pairs have the entries of the first list, in order;
* `added_pairByKey_swap`, `partners_pairByKey_swap`: pairing in the other direction;
* `count_partners`, `count_removed`: how often a key is paired and removed;
* `pairByKey_perm_left`, `pairByKey_perm_right`: pairing lists in another order;
* `pairByKey_select`: pairing the entries of one class.
-/
import GoSurface.Proofs.Pairing
import Mathlib.Data.List.Perm.Basic
import Mathlib.Data.List.ProdSigma
import Mathlib.Data.Prod.Basic

namespace GoSurface

/-! ## What a pair says -/

namespace Pair

variable {α β : Type}

/-- The entry that is gone. -/
def removed? : Pair α → Option α
  | removed p => some p
  | _ => none

/-- The entry that is new. -/
def added? : Pair α → Option α
  | added l => some l
  | _ => none

/-- The two entries of a pair that has both. -/
def partners? : Pair α → Option (α × α)
  | both p l => some (p, l)
  | _ => none

/-- The pair of what is chosen from its entries, if something is chosen from each. -/
def choose? (choose : α → Option β) : Pair α → Option (Pair β)
  | removed p => (choose p).map removed
  | added l => (choose l).map added
  | both p l => (choose p).bind fun p => (choose l).map (both p)

end Pair

section Laws

variable {α κ : Type} [DecidableEq κ] {key : α → κ} {ps ls : List α}

/-! ## The entries of the two lists -/

/-- An entry of the first list, after some keys have been seen, is removed or has its partner. -/
theorem pairWith_cases (key : α → κ) (ls : List α) (seen : List κ) (p : α) :
    (if key p ∈ seen then Pair.removed p else pairWith key ls p) = .removed p ∨
      ∃ l, partner? key ls p = some l ∧
        (if key p ∈ seen then Pair.removed p else pairWith key ls p) = .both p l := by
  rw [pairWith]
  split
  · exact Or.inl rfl
  · cases partner? key ls p with
    | none => exact Or.inl rfl
    | some l => exact Or.inr ⟨l, rfl, rfl⟩

/-- What the pairs of the first list look like. -/
theorem mem_pairsOfPrevious {seen : List κ} {x : Pair α}
    (h : x ∈ pairsOfPrevious key ls seen ps) :
    ∃ p ∈ ps, x = .removed p ∨ ∃ l, partner? key ls p = some l ∧ x = .both p l := by
  induction ps generalizing seen with
  | nil => exact absurd h List.not_mem_nil
  | cons p ps ih =>
    rw [pairsOfPrevious_cons, List.mem_cons] at h
    rcases h with rfl | h
    · exact ⟨p, List.mem_cons_self, pairWith_cases key ls seen p⟩
    · obtain ⟨q, hq, hx⟩ := ih h
      exact ⟨q, List.mem_cons_of_mem p hq, hx⟩

/-- The sides of a pair are entries of the two lists. -/
theorem sides_of_mem_pairByKey {x : Pair α} (h : x ∈ pairByKey key ps ls) :
    (∀ p ∈ x.previous?, p ∈ ps) ∧ ∀ l ∈ x.latest?, l ∈ ls := by
  rcases List.mem_append.mp h with h | h
  · obtain ⟨p, hp, rfl | ⟨l, hl, rfl⟩⟩ := mem_pairsOfPrevious h
    · simp [Pair.previous?, Pair.latest?, hp]
    · simp [Pair.previous?, Pair.latest?, hp, (mem_of_partner? hl).1]
  · obtain ⟨l, hl, rfl⟩ := mem_pairsOfLatest h
    simp [Pair.previous?, Pair.latest?, hl]

/-- Nothing is new among the pairs of the first list. -/
theorem added_pairsOfPrevious (seen : List κ) :
    (pairsOfPrevious key ls seen ps).filterMap Pair.added? = [] := by
  rw [List.filterMap_eq_nil_iff]
  intro x hx
  obtain ⟨p, -, rfl | ⟨l, -, rfl⟩⟩ := mem_pairsOfPrevious hx <;> rfl

/-- What is left of the second list is only added. -/
theorem filterMap_pairsOfLatest {γ : Type} {f : Pair α → Option γ} (h : ∀ l, f (.added l) = none)
    (taken : List κ) : (pairsOfLatest key taken ls).filterMap f = [] := by
  rw [List.filterMap_eq_nil_iff]
  intro x hx
  obtain ⟨l, -, rfl⟩ := mem_pairsOfLatest hx
  exact h l

/-- The entries of the first list stand in the pairs, each once and in order. -/
theorem previous_pairByKey (key : α → κ) (ps ls : List α) :
    (pairByKey key ps ls).filterMap Pair.previous? = ps := by
  have hprevious : ∀ seen, (pairsOfPrevious key ls seen ps).filterMap Pair.previous? = ps := by
    induction ps with
    | nil => exact fun _ => rfl
    | cons p ps ih =>
      intro seen
      have hhead : (if key p ∈ seen then Pair.removed p else pairWith key ls p).previous? =
          some p := by
        rcases pairWith_cases key ls seen p with hpair | ⟨l, -, hpair⟩ <;> rw [hpair] <;> rfl
      rw [pairsOfPrevious_cons, List.filterMap_cons_some hhead, ih]
  rw [pairByKey, List.filterMap_append, hprevious, filterMap_pairsOfLatest (fun _ => rfl),
    List.append_nil]

/-! ## The other direction -/

/-- The entries that are removed going one way are those that nothing takes going the other way,
if the keys that can still be taken are those of the other list not seen so far. -/
theorem pairsOfLatest_eq_map_removed {seen taken : List κ}
    (h : ∀ k, k ∈ taken ↔ k ∈ ls.map key ∧ k ∉ seen) :
    pairsOfLatest key taken ps =
      ((pairsOfPrevious key ls seen ps).filterMap Pair.removed?).map Pair.added := by
  induction ps generalizing seen taken with
  | nil => rfl
  | cons p ps ih =>
    rw [pairsOfLatest, pairsOfPrevious_cons]
    by_cases htaken : key p ∈ taken
    · -- The entry has a partner, and its key is used up on both sides.
      obtain ⟨hfound, hseen⟩ := (h (key p)).mp htaken
      obtain ⟨l, hl, hkey⟩ := List.mem_map.mp hfound
      obtain ⟨l', hl'⟩ := exists_partner? hl hkey
      have hpair : pairWith key ls p = .both p l' := by rw [pairWith, hl']
      rw [if_pos htaken, if_neg hseen, hpair, List.filterMap_cons_none rfl]
      apply ih
      intro k
      rw [List.mem_filter, h k, List.mem_cons, not_or, and_assoc, decide_eq_true_eq,
        and_comm (a := k ∉ seen)]
    · -- The entry is removed: its key has been seen, or the other list does not have it.
      have hpair : (if key p ∈ seen then Pair.removed p else pairWith key ls p) =
          .removed p := by
        split
        · rfl
        · next hseen =>
          have hnone : partner? key ls p = none := by
            cases hpartner : partner? key ls p with
            | none => rfl
            | some l =>
              obtain ⟨hl, hkey⟩ := mem_of_partner? hpartner
              exact absurd ((h (key p)).mpr ⟨hkey ▸ List.mem_map_of_mem hl, hseen⟩) htaken
          rw [pairWith, hnone]
      rw [if_neg htaken, hpair, List.filterMap_cons_some (f := Pair.removed?) rfl, List.map_cons]
      congr 1
      apply ih
      intro k
      rw [h k, List.mem_cons, not_or]
      refine and_congr_right fun hk => ⟨fun hseen => ⟨?_, hseen⟩, And.right⟩
      rintro rfl
      exact htaken ((h _).mpr ⟨hk, hseen⟩)

/-- **What is added in one direction is what is removed in the other**, in the same order. -/
theorem added_pairByKey_swap (key : α → κ) (ps ls : List α) :
    (pairByKey key ls ps).filterMap Pair.added? =
      (pairByKey key ps ls).filterMap Pair.removed? := by
  have hadded : ∀ xs : List α, (xs.map Pair.added).filterMap Pair.added? = xs := by
    intro xs
    rw [List.filterMap_map]
    exact List.filterMap_some
  have htaken : ∀ k, k ∈ ls.map key ↔ k ∈ ls.map key ∧ k ∉ ([] : List κ) := by simp
  rw [pairByKey, pairByKey, List.filterMap_append, List.filterMap_append, added_pairsOfPrevious,
    filterMap_pairsOfLatest (f := Pair.removed?) (fun _ => rfl), List.nil_append, List.append_nil,
    pairsOfLatest_eq_map_removed htaken, hadded]

/-- Two entries are partners when each is the first of its list with their key. -/
theorem both_mem_pairsOfPrevious_iff {seen : List κ} {p l : α} :
    Pair.both p l ∈ pairsOfPrevious key ls seen ps ↔
      key p ∉ seen ∧ partner? key ps p = some p ∧ partner? key ls p = some l := by
  induction ps generalizing seen with
  | nil => simp [pairsOfPrevious, partner?]
  | cons q ps ih =>
    have hfirst : partner? key (q :: ps) p =
        if key q = key p then some q else partner? key ps p := by
      by_cases hkey : key q = key p <;> simp [partner?, hkey]
    rw [pairsOfPrevious_cons, List.mem_cons, ih, hfirst]
    constructor
    · rintro (hhead | ⟨hseen, hp, hl⟩)
      · by_cases hmem : key q ∈ seen
        · rw [if_pos hmem] at hhead
          cases hhead
        · rw [if_neg hmem, pairWith] at hhead
          cases hpartner : partner? key ls q with
          | none =>
            rw [hpartner] at hhead
            cases hhead
          | some l' =>
            rw [hpartner, Pair.both.injEq] at hhead
            obtain ⟨rfl, rfl⟩ := hhead
            exact ⟨hmem, if_pos rfl, hpartner⟩
      · rw [List.mem_cons, not_or] at hseen
        exact ⟨hseen.2, by rw [if_neg (Ne.symm hseen.1), hp], hl⟩
    · rintro ⟨hseen, hp, hl⟩
      by_cases hkey : key q = key p
      · rw [if_pos hkey, Option.some.injEq] at hp
        subst hp
        left
        rw [if_neg hseen, pairWith, hl]
      · rw [if_neg hkey] at hp
        right
        refine ⟨?_, hp, hl⟩
        rw [List.mem_cons, not_or]
        exact ⟨Ne.symm hkey, hseen⟩

/-- The partners among all pairs. -/
theorem both_mem_pairByKey_iff {p l : α} :
    Pair.both p l ∈ pairByKey key ps ls ↔
      partner? key ps p = some p ∧ partner? key ls p = some l := by
  rw [pairByKey, List.mem_append, both_mem_pairsOfPrevious_iff]
  constructor
  · rintro (⟨-, h⟩ | h)
    · exact h
    · obtain ⟨l', -, hl'⟩ := mem_pairsOfLatest h
      cases hl'
  · exact fun h => Or.inl ⟨List.not_mem_nil, h⟩

theorem key_eq_of_both_mem {p l : α} (h : Pair.both p l ∈ pairByKey key ps ls) :
    key l = key p :=
  (mem_of_partner? (both_mem_pairByKey_iff.mp h).2).2

/-- Partners are partners in both directions. -/
theorem both_mem_pairByKey_comm {p l : α} :
    Pair.both p l ∈ pairByKey key ps ls ↔ Pair.both l p ∈ pairByKey key ls ps := by
  have hflip : ∀ {ps ls : List α} {p l : α}, Pair.both p l ∈ pairByKey key ps ls →
      Pair.both l p ∈ pairByKey key ls ps := by
    intro ps ls p l h
    have hkey := key_eq_of_both_mem h
    obtain ⟨hp, hl⟩ := both_mem_pairByKey_iff.mp h
    rw [both_mem_pairByKey_iff, partner?_congr hkey, partner?_congr hkey]
    exact ⟨hl, hp⟩
  exact ⟨hflip, hflip⟩

/-- The pairs that have both sides. -/
theorem mem_partners_iff {xs : List (Pair α)} {p l : α} :
    (p, l) ∈ xs.filterMap Pair.partners? ↔ Pair.both p l ∈ xs := by
  rw [List.mem_filterMap]
  constructor
  · rintro ⟨x, hx, h⟩
    cases x with
    | both p' l' =>
      rw [Pair.partners?, Option.some.injEq, Prod.mk.injEq] at h
      obtain ⟨rfl, rfl⟩ := h
      exact hx
    | _ => cases h
  · exact fun h => ⟨_, h, rfl⟩

/-- No key is paired twice. -/
theorem nodup_keys_partners (key : α → κ) (ps ls : List α) :
    (((pairByKey key ps ls).filterMap Pair.partners?).map fun x => key x.1).Nodup := by
  have hprevious : ∀ seen, (((pairsOfPrevious key ls seen ps).filterMap Pair.partners?).map
      fun x => key x.1).Nodup := by
    induction ps with
    | nil => exact fun _ => List.nodup_nil
    | cons p ps ih =>
      intro seen
      rw [pairsOfPrevious_cons]
      rcases pairWith_cases key ls seen p with hpair | ⟨l, -, hpair⟩
      · rw [hpair, List.filterMap_cons_none rfl]
        exact ih _
      · rw [hpair, List.filterMap_cons_some (f := Pair.partners?) rfl, List.map_cons,
          List.nodup_cons]
        refine ⟨?_, ih _⟩
        -- The entries after this one are only paired if they have another key.
        intro hmem
        obtain ⟨⟨q, l'⟩, hq, hkey⟩ := List.mem_map.mp hmem
        have hfresh := (both_mem_pairsOfPrevious_iff.mp (mem_partners_iff.mp hq)).1
        exact hfresh (hkey ▸ List.mem_cons_self)
  rw [pairByKey, List.filterMap_append, filterMap_pairsOfLatest (fun _ => rfl), List.append_nil]
  exact hprevious []

/-- **Partners in the other direction** are the same, each the other way round. -/
theorem partners_pairByKey_swap (key : α → κ) (ps ls : List α) :
    List.Perm (((pairByKey key ps ls).filterMap Pair.partners?).map Prod.swap)
      ((pairByKey key ls ps).filterMap Pair.partners?) := by
  have hnodup : ∀ ps ls : List α, ((pairByKey key ps ls).filterMap Pair.partners?).Nodup :=
    fun ps ls => List.Nodup.of_map _ (nodup_keys_partners key ps ls)
  rw [List.perm_ext_iff_of_nodup ((hnodup ps ls).map Prod.swap_injective) (hnodup ls ps)]
  rintro ⟨l, p⟩
  rw [List.mem_map_swap, mem_partners_iff, mem_partners_iff, both_mem_pairByKey_comm]

/-! ## How often a key occurs -/

/-- A key that both lists have is paired once, any other key never. -/
theorem count_partners (key : α → κ) (ps ls : List α) (k : κ) :
    (((pairByKey key ps ls).filterMap Pair.partners?).map fun x => key x.1).count k =
      min 1 (min ((ps.map key).count k) ((ls.map key).count k)) := by
  have hmem : k ∈ ((pairByKey key ps ls).filterMap Pair.partners?).map (fun x => key x.1) ↔
      k ∈ ps.map key ∧ k ∈ ls.map key := by
    simp only [List.mem_map, Prod.exists, mem_partners_iff]
    constructor
    · rintro ⟨p, l, hboth, rfl⟩
      obtain ⟨hp, hl⟩ := both_mem_pairByKey_iff.mp hboth
      exact ⟨⟨p, (mem_of_partner? hp).1, rfl⟩, ⟨l, mem_of_partner? hl⟩⟩
    · rintro ⟨⟨p, hp, rfl⟩, ⟨l, hl, hkey⟩⟩
      have hself : key p = key p := rfl
      obtain ⟨p', hp'⟩ := exists_partner? hp hself
      obtain ⟨l', hl'⟩ := exists_partner? hl hkey
      have hkey' := (mem_of_partner? hp').2
      refine ⟨p', l', ?_, hkey'⟩
      rw [both_mem_pairByKey_iff, partner?_congr hkey', partner?_congr hkey']
      exact ⟨hp', hl'⟩
  rw [(nodup_keys_partners key ps ls).count]
  have hps := List.count_pos_iff (a := k) (l := ps.map key)
  have hls := List.count_pos_iff (a := k) (l := ls.map key)
  split
  · next h =>
    obtain ⟨hp, hl⟩ := hmem.mp h
    have := hps.mpr hp
    have := hls.mpr hl
    omega
  · next h =>
    rw [hmem, ← hps, ← hls] at h
    omega

/-- An entry of the first list is removed or has a partner. -/
theorem count_previous (key : α → κ) (xs : List (Pair α)) (k : κ) :
    ((xs.filterMap Pair.previous?).map key).count k =
      ((xs.filterMap Pair.removed?).map key).count k +
        ((xs.filterMap Pair.partners?).map fun x => key x.1).count k := by
  induction xs with
  | nil => rfl
  | cons x xs ih =>
    cases x with
    | added l => exact ih
    | removed p =>
      simp only [List.filterMap_cons, Pair.previous?, Pair.removed?, Pair.partners?,
        List.map_cons, List.count_cons, ih]
      omega
    | both p l =>
      simp only [List.filterMap_cons, Pair.previous?, Pair.removed?, Pair.partners?,
        List.map_cons, List.count_cons, ih]
      omega

/-- Of the entries of the first list with one key, all but one partner at most are removed. -/
theorem count_removed (key : α → κ) (ps ls : List α) (k : κ) :
    (((pairByKey key ps ls).filterMap Pair.removed?).map key).count k =
      (ps.map key).count k - min 1 (min ((ps.map key).count k) ((ls.map key).count k)) := by
  have hcount := count_previous key (pairByKey key ps ls) k
  rw [previous_pairByKey, count_partners] at hcount
  omega

/-! ## Lists in another order -/

/-- Among distinct keys, the entry found for a key is the one that has it. -/
theorem find?_key_eq_some_iff {ls : List α} (hnodup : (ls.map key).Nodup) {k : κ} {l : α} :
    ls.find? (fun x => key x = k) = some l ↔ l ∈ ls ∧ key l = k := by
  constructor
  · intro h
    exact ⟨List.mem_of_find?_eq_some h, by simpa using List.find?_some h⟩
  · rintro ⟨hl, rfl⟩
    exact partner?_eq_some_of_nodup hnodup hl rfl

/-- Among distinct keys, the entry found for a key does not depend on the order. -/
theorem find?_key_eq_of_perm {ls ls' : List α} (hperm : ls.Perm ls')
    (hnodup : (ls.map key).Nodup) (k : κ) :
    ls.find? (fun x => key x = k) = ls'.find? (fun x => key x = k) := by
  have hnodup' : (ls'.map key).Nodup := (hperm.map key).nodup_iff.mp hnodup
  apply Option.ext
  intro l
  rw [find?_key_eq_some_iff hnodup, find?_key_eq_some_iff hnodup', hperm.mem_iff]

/-- The pairs of the first list depend on the second one through partners. -/
theorem pairsOfPrevious_congr {ls ls' : List α} (h : ∀ p, partner? key ls p = partner? key ls' p)
    (seen : List κ) (ps : List α) :
    pairsOfPrevious key ls seen ps = pairsOfPrevious key ls' seen ps := by
  induction ps generalizing seen with
  | nil => rfl
  | cons p ps ih => rw [pairsOfPrevious_cons, pairsOfPrevious_cons, pairWith, pairWith, h, ih]

/-- What nothing in the first list takes is what is removed in the other direction. -/
theorem pairsOfLatest_keys_eq (key : α → κ) {taken : List κ} {ps : List α}
    (h : ∀ k, k ∈ taken ↔ k ∈ ps.map key) (ls : List α) :
    pairsOfLatest key taken ls =
      ((pairsOfPrevious key ps [] ls).filterMap Pair.removed?).map Pair.added :=
  pairsOfLatest_eq_map_removed fun k => by simp [h k]

/-- **The order of the first list** decides the order of the pairs only, if its keys are
distinct. -/
theorem pairByKey_perm_left {ps ps' : List α} (hperm : ps.Perm ps') (hnodup : (ps.map key).Nodup)
    (ls : List α) : (pairByKey key ps ls).Perm (pairByKey key ps' ls) := by
  have hnodup' : (ps'.map key).Nodup := (hperm.map key).nodup_iff.mp hnodup
  have hkeys : ∀ k, k ∈ ps'.map key ↔ k ∈ ps.map key := fun k => (hperm.map key).mem_iff.symm
  have hrest : pairsOfLatest key (ps'.map key) ls = pairsOfLatest key (ps.map key) ls := by
    rw [pairsOfLatest_keys_eq key hkeys, pairsOfLatest_keys_eq key fun _ => Iff.rfl]
  rw [pairByKey, pairByKey, hrest, pairsOfPrevious_of_nodup hnodup (by simp),
    pairsOfPrevious_of_nodup hnodup' (by simp)]
  exact (hperm.map _).append_right _

/-- **The order of the second list** decides the order of the pairs only, if its keys are
distinct. -/
theorem pairByKey_perm_right {ls ls' : List α} (hperm : ls.Perm ls') (hnodup : (ls.map key).Nodup)
    (ps : List α) : (pairByKey key ps ls).Perm (pairByKey key ps ls') := by
  have hnodup' : (ls'.map key).Nodup := (hperm.map key).nodup_iff.mp hnodup
  have hfirst := pairsOfPrevious_congr (fun p => find?_key_eq_of_perm hperm hnodup (key p)) [] ps
  rw [pairByKey, pairByKey, hfirst, pairsOfLatest_keys_eq key fun _ => Iff.rfl,
    pairsOfLatest_keys_eq key fun _ => Iff.rfl, pairsOfPrevious_of_nodup hnodup (by simp),
    pairsOfPrevious_of_nodup hnodup' (by simp)]
  exact (((hperm.map _).filterMap _).map _).append_left _

end Laws

/-! ## Pairing one class of entries -/

section Selection

variable {α β κ ι : Type} {key : α → κ} {subkey : β → ι} {choose : α → Option β} {embed : ι → κ}

/-- What is chosen from an entry is told by the entry's key: the entries with an embedded key are
those that something is chosen from, and that has the key that was embedded. -/
structure Selects (key : α → κ) (subkey : β → ι) (choose : α → Option β) (embed : ι → κ) :
    Prop where
  injective : Function.Injective embed
  key_eq : ∀ a b, choose a = some b → key a = embed (subkey b)
  exists_of_key : ∀ a i, key a = embed i → ∃ b, choose a = some b

/-- An entry has an embedded key when what is chosen from it has the key. -/
theorem Selects.key_eq_iff (h : Selects key subkey choose embed) (a : α) (i : ι) :
    key a = embed i ↔ ∃ b, choose a = some b ∧ subkey b = i := by
  constructor
  · intro hkey
    obtain ⟨b, hb⟩ := h.exists_of_key a i hkey
    exact ⟨b, hb, h.injective ((h.key_eq a b hb).symm.trans hkey)⟩
  · rintro ⟨b, hb, rfl⟩
    exact h.key_eq a b hb

variable [DecidableEq κ] [DecidableEq ι]

/-- The first entry with an embedded key gives the first chosen entry with the key. -/
theorem Selects.find?_eq (h : Selects key subkey choose embed) (ls : List α) (i : ι) :
    (ls.filterMap choose).find? (fun b => subkey b = i) =
      (ls.find? fun a => key a = embed i).bind choose := by
  rw [List.find?_filterMap]
  congr 2
  funext a
  rw [Bool.eq_iff_iff, decide_eq_true_eq, h.key_eq_iff, Option.any_eq_true]
  simp

/-- The pairs of the chosen entries of the first list. -/
theorem pairsOfPrevious_select (h : Selects key subkey choose embed) (ls : List α)
    {seen : List κ} {subseen : List ι} (hseen : ∀ i, i ∈ subseen ↔ embed i ∈ seen) (ps : List α) :
    pairsOfPrevious subkey (ls.filterMap choose) subseen (ps.filterMap choose) =
      (pairsOfPrevious key ls seen ps).filterMap (Pair.choose? choose) := by
  induction ps generalizing seen subseen with
  | nil => rfl
  | cons p ps ih =>
    rw [pairsOfPrevious_cons]
    cases hp : choose p with
    | none =>
      have hpair : (if key p ∈ seen then Pair.removed p else pairWith key ls p).choose? choose =
          none := by
        rw [pairWith]
        split
        · simp [Pair.choose?, hp]
        · cases partner? key ls p <;> simp [Pair.choose?, hp]
      rw [List.filterMap_cons_none hp, List.filterMap_cons_none hpair]
      apply ih
      intro i
      rw [hseen, List.mem_cons, or_iff_right]
      intro hkey
      obtain ⟨b, hb⟩ := h.exists_of_key p i hkey.symm
      rw [hp] at hb
      cases hb
    | some b =>
      have hkey : key p = embed (subkey b) := h.key_eq p b hp
      have hpair : (if key p ∈ seen then Pair.removed p else pairWith key ls p).choose? choose =
          some (if subkey b ∈ subseen then Pair.removed b
            else pairWith subkey (ls.filterMap choose) b) := by
        have hpartner : partner? subkey (ls.filterMap choose) b =
            (partner? key ls p).bind choose := by
          rw [partner?, partner?, h.find?_eq, hkey]
        by_cases hmem : subkey b ∈ subseen
        · have hmem' : key p ∈ seen := hkey ▸ (hseen _).mp hmem
          rw [if_pos hmem, if_pos hmem', Pair.choose?, hp, Option.map_some]
        · have hmem' : key p ∉ seen := fun hp => hmem ((hseen _).mpr (hkey ▸ hp))
          rw [if_neg hmem, if_neg hmem', pairWith, pairWith, hpartner]
          cases hl : partner? key ls p with
          | none => simp [Pair.choose?, hp]
          | some l =>
            obtain ⟨c, hc⟩ := h.exists_of_key l _ ((mem_of_partner? hl).2.trans hkey)
            simp [Pair.choose?, hp, hc]
      rw [List.filterMap_cons_some hp, List.filterMap_cons_some hpair, pairsOfPrevious_cons]
      congr 1
      apply ih
      intro i
      rw [List.mem_cons, List.mem_cons, hseen, hkey, h.injective.eq_iff]

/-- The chosen entries of the second list that nothing takes. -/
theorem pairsOfLatest_select (h : Selects key subkey choose embed) {taken : List κ}
    {subtaken : List ι} (htaken : ∀ i, i ∈ subtaken ↔ embed i ∈ taken) (ls : List α) :
    pairsOfLatest subkey subtaken (ls.filterMap choose) =
      (pairsOfLatest key taken ls).filterMap (Pair.choose? choose) := by
  induction ls generalizing taken subtaken with
  | nil => rfl
  | cons l ls ih =>
    rw [pairsOfLatest]
    cases hl : choose l with
    | none =>
      rw [List.filterMap_cons_none hl]
      split
      · apply ih
        intro i
        have hne : embed i ≠ key l := by
          intro hkey
          obtain ⟨b, hb⟩ := h.exists_of_key l i hkey.symm
          rw [hl] at hb
          cases hb
        simp [htaken, hne]
      · rw [List.filterMap_cons_none (by simp [Pair.choose?, hl]), ih htaken]
    | some b =>
      have hkey : key l = embed (subkey b) := h.key_eq l b hl
      rw [List.filterMap_cons_some hl, pairsOfLatest, hkey]
      simp only [← htaken]
      split
      · apply ih
        intro i
        simp [htaken, h.injective.eq_iff]
      · have hpair : (Pair.added l).choose? choose = some (.added b) := by simp [Pair.choose?, hl]
        rw [List.filterMap_cons_some hpair, ih htaken]

/-- **Pairing the chosen entries** is choosing from the pairs. -/
theorem pairByKey_select (h : Selects key subkey choose embed) (ps ls : List α) :
    pairByKey subkey (ps.filterMap choose) (ls.filterMap choose) =
      (pairByKey key ps ls).filterMap (Pair.choose? choose) := by
  have hkeys : ∀ i, i ∈ (ps.filterMap choose).map subkey ↔ embed i ∈ ps.map key := by
    intro i
    simp only [List.mem_map, List.mem_filterMap, h.key_eq_iff]
    constructor
    · rintro ⟨b, ⟨a, ha, hb⟩, hi⟩
      exact ⟨a, ha, b, hb, hi⟩
    · rintro ⟨a, ha, b, hb, hi⟩
      exact ⟨b, ⟨a, ha, hb⟩, hi⟩
  have hnone : ∀ i, i ∈ ([] : List ι) ↔ embed i ∈ ([] : List κ) := by simp
  rw [pairByKey, pairByKey, List.filterMap_append, pairsOfPrevious_select h ls hnone,
    pairsOfLatest_select h hkeys]

end Selection

end GoSurface
