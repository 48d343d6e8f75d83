/-
# Severities of paired declarations

Severities are linearly ordered, and a diff is as severe as its most severe change.  Declarations
of every kind are compared in the same way: they are paired by key, a new one is minor, a lost one
is major unless nobody could reach it, and two partners are judged by a rule of their kind.

* `Diff.severity_le_iff`: a bound on a diff is a bound on each change;
* `Judges`: the severity that a rule gives to each pair;
* `Judges.kept_of_le`, `Judges.le_minor_iff`, `Judges.self_le_patch_iff`: what a low severity says
  about two lists, about lists with distinct keys, and about a list and itself;
* `Judges.le_max_of_chain`: severities of two steps bound that of the whole way.
-/
import GoSurface.Change
import GoSurface.Proofs.Pairing
import Mathlib.Order.MinMax

namespace GoSurface

/-! ## The order of severities -/

namespace Severity

instance : LinearOrder Severity where
  le_refl a := Nat.le_refl a.rank
  le_trans _ _ _ := Nat.le_trans
  le_antisymm a b := by cases a <;> cases b <;> decide
  le_total a b := Nat.le_total a.rank b.rank
  toDecidableLE := inferInstance
  max_def _ _ := rfl

theorem patch_le (s : Severity) : patch ≤ s := Nat.zero_le s.rank

theorem le_major (s : Severity) : s ≤ major := by cases s <;> decide

theorem le_minor_iff {s : Severity} : s ≤ minor ↔ s ≠ major := by cases s <;> decide

theorem le_patch_iff {s : Severity} : s ≤ patch ↔ s = patch := by cases s <;> decide

theorem not_minor_le_iff {s : Severity} : ¬ minor ≤ s ↔ s = patch := by cases s <;> decide

end Severity

/-- A bound on the severity of a diff is a bound on the severity of each change. -/
theorem Diff.severity_le_iff {d : Diff} {s : Severity} :
    Diff.severity d ≤ s ↔ ∀ c ∈ d, c.severity ≤ s := by
  induction d with
  | nil => simp [Severity.patch_le]
  | cons c d ih => rw [Diff.severity_cons, max_le_iff, ih, List.forall_mem_cons]

/-- A concatenation is as severe as the more severe part. -/
theorem Diff.severity_append (d e : Diff) :
    Diff.severity (d ++ e) = max (Diff.severity d) (Diff.severity e) := by
  apply le_antisymm
  · rw [Diff.severity_le_iff]
    intro c hc
    rcases List.mem_append.mp hc with hc | hc
    · exact le_trans (Diff.severity_le_iff.mp le_rfl c hc) (le_max_left _ _)
    · exact le_trans (Diff.severity_le_iff.mp le_rfl c hc) (le_max_right _ _)
  · rw [max_le_iff, Diff.severity_le_iff, Diff.severity_le_iff]
    have hall := Diff.severity_le_iff.mp (le_refl (Diff.severity (d ++ e)))
    exact ⟨fun c hc => hall c (by simp [hc]), fun c hc => hall c (by simp [hc])⟩

/-- The impact that goes with a reason: what is new and what grows at its end is minor. -/
def Reason.severity : Reason → Severity
  | packageAdded | valueAdded _ | functionAdded | typeAdded | fieldsAppended => .minor
  | _ => .major

/-- The severity of a change that may not have occurred. -/
def severityOf : Option Change → Severity
  | none => .patch
  | some c => c.severity

/-- A bound on the changes among some pairs is a bound on what each pair amounts to. -/
theorem severity_filterMap_le_iff {β : Type} {xs : List β} {change : β → Option Change}
    {s : Severity} :
    Diff.severity (xs.filterMap change) ≤ s ↔ ∀ x ∈ xs, severityOf (change x) ≤ s := by
  rw [Diff.severity_le_iff]
  constructor
  · intro h x hx
    cases hc : change x with
    | none => exact Severity.patch_le s
    | some c => exact h c (List.mem_filterMap.mpr ⟨x, hx, hc⟩)
  · intro h c hc
    obtain ⟨x, hx, hxc⟩ := List.mem_filterMap.mp hc
    have hsev := h x hx
    rwa [hxc] at hsev

/-! ## Rules -/

section Rules

variable {α κ : Type} [DecidableEq κ]

/-- How severe a rule finds a pair: an addition is minor, a removal is major unless its key is that
of something hidden, and two partners are judged by `judge`. -/
structure Judges (key : α → κ) (hidden : κ → Bool) (judge : α → α → Severity)
    (change : Pair α → Option Change) : Prop where
  added : ∀ l, severityOf (change (.added l)) = .minor
  removed : ∀ p, severityOf (change (.removed p)) = if hidden (key p) then .patch else .major
  both : ∀ p l, severityOf (change (.both p l)) = judge p l

variable {key : α → κ} {hidden : κ → Bool} {judge : α → α → Severity}
  {change : Pair α → Option Change} {ps ls : List α}

/-- A bound on the changes between two lists bounds both halves of the pairs. -/
theorem severity_pairByKey_le_iff {s : Severity} :
    Diff.severity ((pairByKey key ps ls).filterMap change) ≤ s ↔
      (∀ x ∈ pairsOfPrevious key ls [] ps, severityOf (change x) ≤ s) ∧
        ∀ x ∈ pairsOfLatest key (ps.map key) ls, severityOf (change x) ≤ s := by
  rw [severity_filterMap_le_iff, pairByKey, List.forall_mem_append]

/-- Below major, entries that are not hidden have keys of their own, and partners that are judged
no more severely than the whole. -/
theorem Judges.kept_of_le (h : Judges key hidden judge change) {s : Severity}
    (hs : Diff.severity ((pairByKey key ps ls).filterMap change) ≤ s) (hmajor : s ≠ .major) :
    ps.Pairwise (fun p q => key p = key q → hidden (key p) = true) ∧
      ∀ p ∈ ps, hidden (key p) = false → ∃ l, partner? key ls p = some l ∧ judge p l ≤ s := by
  obtain ⟨hprevious, -⟩ := severity_pairByKey_le_iff.mp hs
  have hremoved : ∀ p, Pair.removed p ∈ pairsOfPrevious key ls [] ps →
      hidden (key p) = true := by
    intro p hp
    have hsev := hprevious _ hp
    rw [h.removed] at hsev
    by_contra hvisible
    rw [if_neg hvisible] at hsev
    exact hmajor (le_antisymm (Severity.le_major s) hsev)
  obtain ⟨hpairwise, hkept⟩ := keys_of_removals (fun k => hidden k = true) hremoved
  refine ⟨hpairwise, ?_⟩
  intro p hp hvisible
  obtain ⟨-, l, hl, hboth⟩ := hkept p hp (by simp [hvisible])
  have hsev := hprevious _ hboth
  rw [h.both] at hsev
  exact ⟨l, hl, hsev⟩

/-- Without hidden entries, a severity below major leaves distinct keys. -/
theorem Judges.nodup_of_le (h : Judges key hidden judge change) {s : Severity}
    (hs : Diff.severity ((pairByKey key ps ls).filterMap change) ≤ s) (hmajor : s ≠ .major)
    (hvisible : ∀ p ∈ ps, hidden (key p) = false) : (ps.map key).Nodup := by
  obtain ⟨hpairwise, -⟩ := h.kept_of_le hs hmajor
  rw [List.Nodup, List.pairwise_map]
  refine hpairwise.imp_of_mem ?_
  intro p q hp _ hpq hkey
  have hhidden := hpq hkey
  rw [hvisible p hp] at hhidden
  exact absurd hhidden Bool.false_ne_true

/-- A patch adds nothing. -/
theorem Judges.latest_eq_nil (h : Judges key hidden judge change)
    (hs : Diff.severity ((pairByKey key ps ls).filterMap change) ≤ .patch) :
    pairsOfLatest key (ps.map key) ls = [] := by
  obtain ⟨-, hlatest⟩ := severity_pairByKey_le_iff.mp hs
  refine List.eq_nil_iff_forall_not_mem.mpr ?_
  intro x hx
  obtain ⟨l, -, rfl⟩ := mem_pairsOfLatest hx
  have hsev := hlatest _ hx
  rw [h.added] at hsev
  exact absurd hsev (by decide)

/-- With distinct keys, a bound that additions meet is a bound on each entry of the first list:
either it has no partner and is hidden, or its partner is judged within the bound. -/
theorem Judges.le_minor_iff (h : Judges key hidden judge change) (hps : (ps.map key).Nodup)
    (hls : (ls.map key).Nodup) :
    Diff.severity ((pairByKey key ps ls).filterMap change) ≤ .minor ↔
      ∀ p ∈ ps, (hidden (key p) = false → ∃ l ∈ ls, key l = key p) ∧
        ∀ l ∈ ls, key l = key p → judge p l ≤ .minor := by
  have hlatest : ∀ x ∈ pairsOfLatest key (ps.map key) ls, severityOf (change x) ≤ .minor := by
    intro x hx
    obtain ⟨l, -, rfl⟩ := mem_pairsOfLatest hx
    rw [h.added]
  rw [severity_pairByKey_le_iff, pairsOfPrevious_of_nodup hps (by simp), List.forall_mem_map,
    and_iff_left hlatest]
  refine forall₂_congr fun p _ => ?_
  cases hpartner : partner? key ls p with
  | some l =>
    obtain ⟨hl, hkey⟩ := mem_of_partner? hpartner
    rw [show pairWith key ls p = .both p l by simp [pairWith, hpartner], h.both]
    constructor
    · intro hjudge
      refine ⟨fun _ => ⟨l, hl, hkey⟩, ?_⟩
      intro l' hl' hkey'
      rw [partner?_eq_some_of_nodup hls hl' hkey', Option.some.injEq] at hpartner
      exact hpartner ▸ hjudge
    · rintro ⟨-, hjudge⟩
      exact hjudge l hl hkey
  | none =>
    rw [show pairWith key ls p = .removed p by simp [pairWith, hpartner], h.removed]
    have hlost : ∀ l ∈ ls, key l ≠ key p := by
      intro l hl hkey
      obtain ⟨l', hl'⟩ := exists_partner? hl hkey
      rw [hpartner] at hl'
      cases hl'
    constructor
    · intro hsev
      refine ⟨?_, fun l hl hkey => absurd hkey (hlost l hl)⟩
      intro hvisible
      rw [hvisible] at hsev
      exact absurd hsev (by decide)
    · rintro ⟨hfound, -⟩
      cases hhidden : hidden (key p) with
      | true => exact Severity.patch_le _
      | false =>
        obtain ⟨l, hl, hkey⟩ := hfound hhidden
        exact absurd hkey (hlost l hl)

/-- A list compared with itself is a patch exactly when its keys are distinct and every entry is
judged to be unchanged. -/
theorem Judges.self_le_patch_iff (h : Judges key hidden judge change) :
    Diff.severity ((pairByKey key ps ps).filterMap change) ≤ .patch ↔
      (ps.map key).Nodup ∧ ∀ p ∈ ps, judge p p ≤ .patch := by
  have hself : (ps.map key).Nodup →
      ((∀ x ∈ pairsOfPrevious key ps [] ps, severityOf (change x) ≤ .patch) ↔
        ∀ p ∈ ps, judge p p ≤ .patch) := by
    intro hnodup
    rw [pairsOfPrevious_of_nodup hnodup (by simp), List.forall_mem_map]
    refine forall₂_congr fun p hp => ?_
    rw [show pairWith key ps p = .both p p by
      simp [pairWith, partner?_eq_some_of_nodup hnodup hp rfl], h.both]
  constructor
  · intro hs
    -- A key that comes twice would be added the second time.
    obtain ⟨hnodup, -⟩ := pairsOfLatest_eq_nil_iff.mp (h.latest_eq_nil hs)
    exact ⟨hnodup, (hself hnodup).mp (severity_pairByKey_le_iff.mp hs).1⟩
  · rintro ⟨hnodup, hjudge⟩
    refine severity_pairByKey_le_iff.mpr ⟨(hself hnodup).mpr hjudge, ?_⟩
    rw [pairsOfLatest_eq_nil_iff.mpr ⟨hnodup, fun p hp => List.mem_map_of_mem hp⟩]
    simp

/-- Against nothing, all that there is was added. -/
theorem severity_pairByKey_nil_le (h : ∀ l, severityOf (change (.added l)) = .minor) :
    Diff.severity ((pairByKey key [] ls).filterMap change) ≤ .minor := by
  refine severity_pairByKey_le_iff.mpr ⟨by simp [pairsOfPrevious], ?_⟩
  intro x hx
  obtain ⟨l, -, rfl⟩ := mem_pairsOfLatest hx
  rw [h]

end Rules

/-! ## Steps in a row -/

section Chain

variable {α κ : Type} [DecidableEq κ] {key : α → κ} {hidden : κ → Bool}
  {judge₁ judge₂ judge : α → α → Severity} {change₁ change₂ change : Pair α → Option Change}
  {ps qs rs : List α}

/-- If the judgement of the whole way is bounded by those of its two steps, so is the severity:
what is kept twice is kept, and what is added on the way was added in one of the steps. -/
theorem Judges.le_max_of_chain (h₁ : Judges key hidden judge₁ change₁)
    (h₂ : Judges key hidden judge₂ change₂) (h : Judges key hidden judge change)
    (hps : ∀ p ∈ ps, hidden (key p) = false) (hqs : ∀ q ∈ qs, hidden (key q) = false)
    (hjudge : ∀ p ∈ ps, ∀ q ∈ qs, ∀ r ∈ rs, key q = key p → key r = key q →
      judge p r ≤ max (judge₁ p q) (judge₂ q r)) :
    Diff.severity ((pairByKey key ps rs).filterMap change) ≤
      max (Diff.severity ((pairByKey key ps qs).filterMap change₁))
        (Diff.severity ((pairByKey key qs rs).filterMap change₂)) := by
  generalize hs : max (Diff.severity ((pairByKey key ps qs).filterMap change₁))
    (Diff.severity ((pairByKey key qs rs).filterMap change₂)) = s
  obtain ⟨hs₁, hs₂⟩ := max_le_iff.mp hs.le
  by_cases hmajor : s = .major
  · rw [hmajor]
    exact Severity.le_major _
  obtain ⟨-, hkept₁⟩ := h₁.kept_of_le hs₁ hmajor
  obtain ⟨-, hkept₂⟩ := h₂.kept_of_le hs₂ hmajor
  have hnodup := h₁.nodup_of_le hs₁ hmajor hps
  rw [severity_pairByKey_le_iff]
  constructor
  · rw [pairsOfPrevious_of_nodup hnodup (by simp), List.forall_mem_map]
    intro p hp
    obtain ⟨q, hq, hpq⟩ := hkept₁ p hp (hps p hp)
    obtain ⟨hqmem, hqkey⟩ := mem_of_partner? hq
    obtain ⟨r, hr, hqr⟩ := hkept₂ q hqmem (hqs q hqmem)
    obtain ⟨hrmem, hrkey⟩ := mem_of_partner? hr
    -- The partner of the partner is the partner.
    have hpartner : partner? key rs p = some r := by rw [partner?_congr hqkey.symm, hr]
    rw [show pairWith key rs p = .both p r by simp [pairWith, hpartner], h.both]
    exact le_trans (hjudge p hp q hqmem r hrmem hqkey hrkey) (max_le hpq hqr)
  · by_cases hminor : Severity.minor ≤ s
    · intro x hx
      obtain ⟨r, -, rfl⟩ := mem_pairsOfLatest hx
      rw [h.added]
      exact hminor
    · -- Two patches have the keys of each list among those of the list before.
      rw [Severity.not_minor_le_iff.mp hminor] at hs₁ hs₂
      obtain ⟨-, hsub₁⟩ := pairsOfLatest_eq_nil_iff.mp (h₁.latest_eq_nil hs₁)
      obtain ⟨hnodup₂, hsub₂⟩ := pairsOfLatest_eq_nil_iff.mp (h₂.latest_eq_nil hs₂)
      have hnil : pairsOfLatest key (ps.map key) rs = [] := by
        refine pairsOfLatest_eq_nil_iff.mpr ⟨hnodup₂, fun r hr => ?_⟩
        obtain ⟨q, hq, hkey⟩ := List.mem_map.mp (hsub₂ r hr)
        exact hkey ▸ hsub₁ q hq
      simp [hnil]

end Chain

end GoSurface
