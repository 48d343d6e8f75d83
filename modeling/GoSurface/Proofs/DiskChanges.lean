/-
# Changes on a disk

A new directory stands at a place that was free, and everything else stays.  So what paths led to
before, they lead to afterwards.  Removing a tree takes away what stands at a location and below it.

* `Disk.Extends`: having all that another disk has;
* `Disk.freePlace_eq_ok_iff`: the place for something new;
* `Disk.locate_of_freePlace`: a path leads to what was put at its place;
* `Disk.Sound.wellFormed_createDir`, `Disk.Sound.wellFormed_erase`: sound disks stay sound.
-/
import GoSurface.Proofs.Paths
import Mathlib.Data.List.DropRight

namespace GoSurface

/-! ## The end of a path -/

/-- The pieces between separators have none in them. -/
theorem not_mem_of_mem_splitOnSep {α : Type} [DecidableEq α] {sep : α} {as p : List α}
    (hp : p ∈ splitOnSep sep as) : sep ∉ p := by
  induction as generalizing p with
  | nil =>
    rw [splitOnSep, List.mem_singleton] at hp
    simp [hp]
  | cons a as ih =>
    rw [splitOnSep] at hp
    split at hp
    · rcases List.mem_cons.mp hp with rfl | hp
      · simp
      · exact ih hp
    · next hne =>
      split at hp
      · next hnil => exact absurd hnil (splitOnSep_ne_nil sep as)
      · next q qs hq =>
        rcases List.mem_cons.mp hp with rfl | hp
        · simpa [Ne.symm hne] using ih (p := q) (by simp [hq])
        · exact ih (by simp [hq, hp])

namespace Path

theorem slashless_of_mem_components {path name : String} (h : name ∈ components path) :
    '/' ∉ name.toList := by
  obtain ⟨piece, hpiece, rfl⟩ := List.mem_map.mp h
  simpa using not_mem_of_mem_splitOnSep hpiece

theorem IsName.components {name : String} (h : IsName name) : components name = [name] := by
  simp [Path.components, splitOnSep_of_not_mem h.slashless]

theorem IsName.isAbsolute {name : String} (h : IsName name) : isAbsolute name = false := by
  have hone : ∀ x ∈ [name], IsName x := by simpa using h
  simpa using isAbsolute_intercalate hone

/-- The components of a path without the empty ones at its end. -/
def trimmed (path : String) : List String :=
  (components path).rdropWhile (· = "")

/-- The components of a path are the trimmed ones, and empty ones behind them. -/
theorem components_eq_trimmed (path : String) :
    ∃ n, components path = trimmed path ++ List.replicate n "" := by
  have hempty : ∀ x ∈ (components path).rtakeWhile (· = ""), x = "" := by
    intro x hx
    simpa using List.mem_rtakeWhile_imp hx
  refine ⟨((components path).rtakeWhile (· = "")).length, ?_⟩
  rw [trimmed, ← List.eq_replicate_of_mem hempty, List.rdropWhile_append_rtakeWhile]

/-- What is left at the end of a trimmed path is not empty. -/
theorem ne_empty_of_trimmed {path name : String} {above : List String}
    (h : trimmed path = above ++ [name]) : name ≠ "" := by
  have hlast : ∀ hne : trimmed path ≠ [], (trimmed path).getLast hne ≠ "" := by
    intro hne
    simpa [trimmed] using List.rdropWhile_last_not (fun x => decide (x = "")) (components path) hne
  rw [h] at hlast
  simpa using hlast

theorem mem_components_of_trimmed {path name : String} {above : List String}
    (h : trimmed path = above ++ [name]) : name ∈ components path := by
  obtain ⟨n, hn⟩ := components_eq_trimmed path
  simp [hn, h]

end Path

namespace Disk

variable {d d' : Disk} {loc loc' parent place : Location} {e : Entry} {path : String}

/-! ## Entries -/

/-- Of the entries that are kept by their locations, a location has what it had or nothing. -/
theorem find?_filter_fst (keep : Location → Bool) (entries : List (Location × Entry))
    (l : Location) :
    (entries.filter fun x => keep x.1).find? (·.1 = l) =
      if keep l then entries.find? (·.1 = l) else none := by
  induction entries with
  | nil => simp
  | cons x entries ih =>
    by_cases hx : x.1 = l
    · subst hx
      by_cases hkeep : keep x.1 = true
      · simp [hkeep]
      · simp [hkeep, ih]
    · by_cases hkeep : keep x.1 = true
      · simp [hkeep, hx, ih]
      · simp [hkeep, hx, ih]

/-- What stands on a disk after something has been put there. -/
theorem get?_insert (hne : loc ≠ []) (l : Location) :
    (d.insert loc e).get? l = if l = loc then some e else d.get? l := by
  by_cases hl : l = loc
  · subst hl
    simp [get?, insert, hne]
  · have hkeep : decide (l ≠ loc) = true := by simpa using hl
    rw [if_neg hl, get?, get?, insert, List.find?_cons_of_neg (by simpa using Ne.symm hl),
      find?_filter_fst (· ≠ loc), if_pos hkeep]

/-- What stands on a disk after a tree has been taken away. -/
theorem get?_erase (hne : loc ≠ []) (l : Location) :
    (d.erase loc).get? l = if loc <+: l then none else d.get? l := by
  by_cases hl : l = []
  · subst hl
    simp [hne]
  · rw [get?, get?, if_neg hl, if_neg hl, erase, find?_filter_fst (!loc.isPrefixOf ·)]
    by_cases hstart : loc <+: l
    · simp [hstart, List.isPrefixOf_iff_prefix.mpr hstart]
    · have hfalse : loc.isPrefixOf l = false := by
        rwa [← Bool.not_eq_true, List.isPrefixOf_iff_prefix]
      simp [hstart, hfalse]

/-! ## Disks with more on them -/

/-- A disk has all that another one has, and the same working directory. -/
structure Extends (d d' : Disk) : Prop where
  here : d'.here = d.here
  get? : ∀ {loc e}, d.get? loc = some e → d'.get? loc = some e

theorem Extends.refl (d : Disk) : d.Extends d :=
  ⟨rfl, id⟩

/-- Nothing is lost by putting something at a free place. -/
theorem extends_insert (hne : loc ≠ []) (hfree : d.get? loc = none) :
    d.Extends (d.insert loc e) := by
  refine ⟨rfl, ?_⟩
  intro l e' hget
  rw [get?_insert hne, if_neg]
  · exact hget
  · rintro rfl
    simp [hfree] at hget

variable {follow : Bool} {n : Nat} {r : Location × Entry} {xs ys : List String}

/-- A stride that gets somewhere gets there on a disk with more on it. -/
theorem Extends.stride_eq (h : d.Extends d') (name : String)
    (hstride : ∀ fault, d.stride loc name ≠ .stuck fault) :
    d'.stride loc name = d.stride loc name := by
  rw [stride] at hstride
  rw [stride, stride]
  split_ifs at hstride ⊢ with hhere habove hlong
  · rfl
  · rfl
  · rfl
  · cases hget : d.get? (loc ++ [name]) with
    | none => simp [hget] at hstride
    | some e => rw [h.get? hget]

/-- A walk that gets somewhere gets there on a disk with more on it. -/
theorem Extends.walkWith (h : d.Extends d')
    {onLink onLink' : Location → List String → Except Fault (Location × Entry)}
    (honLink : ∀ base names, onLink base names = .ok r → onLink' base names = .ok r)
    (hwalk : d.walkWith follow onLink loc xs = .ok r) :
    d'.walkWith follow onLink' loc xs = .ok r := by
  induction xs generalizing loc with
  | nil => exact hwalk
  | cons x xs ih =>
    rw [walkWith_cons] at hwalk ⊢
    have hstride : ∀ fault, d.stride loc x ≠ .stuck fault := by
      intro fault hstuck
      simp [hstuck] at hwalk
    rw [h.stride_eq x hstride]
    cases hnext : d.stride loc x with
    | onto next =>
      rw [hnext] at hwalk
      exact ih hwalk
    | stuck fault => exact absurd hnext (hstride fault)
    | atFile content =>
      rw [hnext] at hwalk
      exact hwalk
    | atLink target =>
      simp only [hnext] at hwalk ⊢
      split at hwalk
      · next hend => rwa [if_pos hend]
      · next hend =>
        rw [if_neg hend]
        exact honLink _ _ hwalk

theorem Extends.walkFrom (h : d.Extends d') (hwalk : d.walkFrom follow n loc xs = .ok r) :
    d'.walkFrom follow n loc xs = .ok r := by
  induction n generalizing loc xs with
  | zero => exact h.walkWith (by simp) hwalk
  | succ n ih => exact h.walkWith (fun _ _ => ih) hwalk

theorem Extends.base (h : d.Extends d') (path : String) : d'.base path = d.base path := by
  rw [Disk.base, Disk.base, h.here]

/-- A path that leads somewhere leads there on a disk with more on it. -/
theorem Extends.locate (h : d.Extends d') (hlocate : d.locate follow path = .ok r) :
    d'.locate follow path = .ok r := by
  obtain ⟨hcheck, hbase, hwalk⟩ := locate_eq_ok_iff.mp hlocate
  rw [locate_eq_ok_iff, h.base path]
  exact ⟨hcheck, h.get? hbase, h.walkFrom hwalk⟩

theorem Extends.dirAt? (h : d.Extends d') (hdir : d.dirAt? path = some loc) :
    d'.dirAt? path = some loc :=
  dirAt?_eq_some_iff.mpr (h.locate (dirAt?_eq_some_iff.mp hdir))

/-! ## Going on from a directory -/

/-- A walk that ends at a directory can go on from there; a link at the new end is treated as the
whole walk treats it. -/
theorem walkFrom_append_of_ne_nil {mid : Location} {res : Except Fault (Location × Entry)}
    (hys : ys ≠ []) (hrest : ∀ k, d.walkWith follow k mid ys = res)
    (hwalk : d.walkFrom true n loc xs = .ok (mid, .dir)) :
    d.walkFrom follow n loc (xs ++ ys) = res := by
  -- one link less at each link, as for `walkFrom_append`
  have hwith : ∀ {loc xs}
      {onLink onLink' : Location → List String → Except Fault (Location × Entry)},
      (∀ base names, onLink base names = .ok (mid, .dir) → onLink' base (names ++ ys) = res) →
      d.walkWith true onLink loc xs = .ok (mid, .dir) →
      d.walkWith follow onLink' loc (xs ++ ys) = res := by
    intro loc xs onLink onLink' honLink hwalk
    induction xs generalizing loc with
    | nil =>
      cases hwalk
      exact hrest onLink'
    | cons x xs ih =>
      rw [walkWith_cons] at hwalk
      rw [List.cons_append, walkWith_cons]
      cases hstride : d.stride loc x with
      | onto next =>
        rw [hstride] at hwalk
        exact ih hwalk
      | stuck fault => simp [hstride] at hwalk
      | atFile content => by_cases hxs : xs = [] <;> simp [hstride, hxs] at hwalk
      | atLink target =>
        simp only [hstride, Bool.not_true, Bool.and_false, Bool.false_eq_true, if_false] at hwalk
        simpa [hys, ← List.append_assoc] using honLink _ _ hwalk
  induction n generalizing loc xs with
  | zero => exact hwith (by simp) hwalk
  | succ n ih => exact hwith (fun _ _ => ih) hwalk

section Joined

variable {dir part : String}

theorem ne_empty_of_dirAt? (hdir : d.dirAt? dir = some loc) : dir ≠ "" := by
  obtain ⟨hcheck, -⟩ := locate_eq_ok_iff.mp (dirAt?_eq_some_iff.mp hdir)
  exact (checkPath_eq_ok_iff.mp hcheck).2.1

/-- A path joined to that of a directory has the components of both. -/
theorem exists_components_join (hdir : d.dirAt? dir = some loc)
    (hpart : Path.isAbsolute part = false) :
    ∃ above, Path.components (Path.join dir part) = above ++ Path.components part ∧
      d.get? (d.base (Path.join dir part)) = some .dir ∧
      d.walkFrom true maxLinks (d.base (Path.join dir part)) above = .ok (loc, .dir) := by
  have hne := ne_empty_of_dirAt? hdir
  obtain ⟨stem, hstem, hjoin⟩ := Path.join_eq hne
  obtain ⟨-, hstart, hwalk⟩ := locate_eq_ok_iff.mp (dirAt?_eq_some_iff.mp hdir)
  have hbase : d.base (Path.join dir part) = d.base dir := by
    rw [hjoin part hpart, base, base]
    rcases hstem with rfl | rfl
    · rw [String.append_assoc, Path.isAbsolute_append hne]
    · rw [Path.isAbsolute_append hne]
  refine ⟨Path.components stem, ?_, ?_⟩
  · rw [hjoin part hpart, Path.components_append]
  · rw [hbase]
    exact ⟨hstart, (walkFrom_openEnd hstem).mp hwalk⟩

/-- A path joined to that of a directory leads where it leads from there. -/
theorem locate_join (hdir : d.dirAt? dir = some loc) (hpart : Path.isAbsolute part = false)
    (hcheck : checkPath (Path.join dir part) = .ok ())
    (hrest : ∀ k, d.walkWith follow k loc (Path.components part) = .ok r) :
    d.locate follow (Path.join dir part) = .ok r := by
  obtain ⟨above, hcomponents, hstart, hwalk⟩ := exists_components_join hdir hpart
  have hne : Path.components part ≠ [] := by simp [Path.components, splitOnSep_ne_nil]
  rw [locate_eq_ok_iff, hcomponents]
  exact ⟨hcheck, hstart, walkFrom_append_of_ne_nil hne hrest hwalk⟩

theorem exists_walkWith_of_locate_join (hdir : d.dirAt? dir = some loc)
    (hpart : Path.isAbsolute part = false) (hlocate : d.locate true (Path.join dir part) = .ok r) :
    ∃ k, d.walkWith true k loc (Path.components part) = .ok r := by
  obtain ⟨above, hcomponents, -, hwalk⟩ := exists_components_join hdir hpart
  have hne : Path.components part ≠ [] := by simp [Path.components, splitOnSep_ne_nil]
  rw [locate_eq_ok_iff, hcomponents] at hlocate
  obtain ⟨mid, hmid, k, hk⟩ := exists_of_walkFrom_append hne hlocate.2.2
  rw [hwalk, Except.ok.injEq, Prod.mk.injEq] at hmid
  exact ⟨k, hmid.1 ▸ hk⟩

variable {name : String}

/-- A directory in a directory has the joined path. -/
theorem dirAt?_join (hdir : d.dirAt? dir = some loc) (hname : Path.IsName name)
    (hcheck : checkPath (Path.join dir name) = .ok ())
    (hget : d.get? (loc ++ [name]) = some .dir) :
    d.dirAt? (Path.join dir name) = some (loc ++ [name]) := by
  rw [dirAt?_eq_some_iff]
  refine locate_join hdir hname.isAbsolute hcheck fun k => ?_
  rw [hname.components, walkWith_cons, stride_of_isName hname, hget]
  rfl

/-- A file in a directory has the joined path. -/
theorem locate_join_file (hdir : d.dirAt? dir = some loc) (hname : Path.IsName name)
    (hcheck : checkPath (Path.join dir name) = .ok ()) {content : Content}
    (hget : d.get? (loc ++ [name]) = some (.file content)) :
    d.locate true (Path.join dir name) = .ok (loc ++ [name], .file content) := by
  refine locate_join hdir hname.isAbsolute hcheck fun k => ?_
  rw [hname.components, walkWith_cons, stride_of_isName hname, hget]
  rfl

end Joined

/-! ## Free places -/

/-- A dot at the end of a path asks for a directory. -/
theorem walkFrom_dot_iff :
    d.walkFrom true n loc (xs ++ ["."]) = .ok r ↔
      r.2 = .dir ∧ d.walkFrom true n loc xs = .ok r := by
  constructor
  · intro hwalk
    obtain ⟨mid, hmid, k, hk⟩ := exists_of_walkFrom_append (by simp) hwalk
    simp only [walkWith, or_true, if_true, Except.ok.injEq] at hk
    subst hk
    exact ⟨rfl, hmid⟩
  · rintro ⟨hdir, hwalk⟩
    obtain ⟨mid, e⟩ := r
    obtain rfl : e = .dir := hdir
    exact walkFrom_append (fun _ => by simp [walkWith]) hwalk

/-- Empty names and dots lead nowhere else. -/
theorem walkWith_idle {onLink : Location → List String → Except Fault (Location × Entry)}
    (hxs : ∀ x ∈ xs, x = "" ∨ x = ".") :
    d.walkWith follow onLink loc xs = .ok (loc, .dir) := by
  induction xs with
  | nil => rfl
  | cons x xs ih =>
    rw [walkWith, if_pos (hxs x (by simp))]
    exact ih fun y hy => hxs y (by simp [hy])

/-- The place for something new is decided by its name, once the directory is found. -/
theorem freePlace_of_trimmed {above : List String} {name : String}
    (hcheck : checkPath path = .ok ()) (hstart : d.get? (d.base path) = some .dir)
    (htrimmed : Path.trimmed path = above ++ [name])
    (hparent : d.walkFrom true maxLinks (d.base path) above = .ok (parent, .dir)) :
    d.freePlace path =
      if name = "." || name = ".." then .error .exists
      else if maxName < name.utf8ByteSize then .error .nameTooLong
      else if (d.get? (parent ++ [name])).isSome then .error .exists
      else .ok (parent ++ [name]) := by
  have hback : (Path.components path).reverse.dropWhile (· = "") = name :: above.reverse := by
    rw [← List.reverse_reverse (List.dropWhile _ _)]
    exact congrArg List.reverse htrimmed |>.trans (by simp)
  have hdot := walkFrom_dot_iff.mpr ⟨rfl, hparent⟩
  have hopen := start_eq_ok_iff.mpr ⟨rfl, hstart⟩
  rw [freePlace, hcheck, hback]
  simp [bind, Except.bind, hopen, hdot]

/-- A name in a directory is the place for something new, unless it is taken. -/
theorem freePlace_eq {above : List String} {name : String} (hcheck : checkPath path = .ok ())
    (hstart : d.get? (d.base path) = some .dir) (htrimmed : Path.trimmed path = above ++ [name])
    (hparent : d.walkFrom true maxLinks (d.base path) above = .ok (parent, .dir))
    (hname : Path.IsName name) :
    d.freePlace path =
      if (d.get? (parent ++ [name])).isSome then .error .exists else .ok (parent ++ [name]) := by
  rw [freePlace_of_trimmed hcheck hstart htrimmed hparent]
  simp [hname.ne_here, hname.ne_above, Nat.not_lt.mpr hname.short]

/-- The place for something new is a name in a directory that nothing has. -/
theorem freePlace_eq_ok_iff :
    d.freePlace path = .ok place ↔ checkPath path = .ok () ∧
      d.get? (d.base path) = some .dir ∧ ∃ above name parent,
      Path.trimmed path = above ++ [name] ∧
      d.walkFrom true maxLinks (d.base path) above = .ok (parent, .dir) ∧
      Path.IsName name ∧ place = parent ++ [name] ∧ d.get? place = none := by
  constructor
  · intro hplace
    rw [freePlace, bind_eq_ok_iff] at hplace
    obtain ⟨⟨⟩, hcheck, hplace⟩ := hplace
    refine ⟨hcheck, ?_⟩
    split at hplace
    · cases hplace
    · next name above hback =>
      have htrimmed : Path.trimmed path = above.reverse ++ [name] := by
        rw [Path.trimmed, List.rdropWhile, hback, List.reverse_cons]
      obtain ⟨_, hopen, hplace⟩ := bind_eq_ok_iff.mp hplace
      obtain ⟨rfl, hstart⟩ := start_eq_ok_iff.mp hopen
      obtain ⟨⟨parent, e⟩, hwalk, hplace⟩ := bind_eq_ok_iff.mp hplace
      obtain ⟨rfl, hparent⟩ := walkFrom_dot_iff.mp hwalk
      simp only [Bool.or_eq_true, decide_eq_true_eq] at hplace
      split_ifs at hplace with hdots hlong htaken
      rw [not_or] at hdots
      cases hplace
      refine ⟨hstart, above.reverse, name, parent, htrimmed, hparent, ?_, rfl,
        by simpa using htaken⟩
      exact ⟨Path.ne_empty_of_trimmed htrimmed, hdots.1, hdots.2,
        Path.slashless_of_mem_components (Path.mem_components_of_trimmed htrimmed),
        Nat.not_lt.mp hlong⟩
  · rintro ⟨hcheck, hstart, above, name, parent, htrimmed, hparent, hname, rfl, hfree⟩
    rw [freePlace_eq hcheck hstart htrimmed hparent hname, hfree]
    rfl

/-- The place for something new in a directory. -/
theorem freePlace_join {dir name : String} (hdir : d.dirAt? dir = some loc)
    (hname : Path.IsName name) (hcheck : checkPath (Path.join dir name) = .ok ()) :
    d.freePlace (Path.join dir name) =
      if (d.get? (loc ++ [name])).isSome then .error .exists else .ok (loc ++ [name]) := by
  obtain ⟨above, hcomponents, hstart, hwalk⟩ := exists_components_join hdir hname.isAbsolute
  refine freePlace_eq hcheck hstart ?_ hwalk hname
  rw [Path.trimmed, hcomponents, hname.components,
    List.rdropWhile_concat_neg _ _ _ (by simpa using hname.ne_empty)]

/-- A path leads to the directory that was put at its place. -/
theorem locate_of_freePlace (hplace : d.freePlace path = .ok place) (hext : d.Extends d')
    (hdir : d'.get? place = some .dir) (follow : Bool) :
    d'.locate follow path = .ok (place, .dir) := by
  obtain ⟨hcheck, hstart, above, name, parent, htrimmed, hparent, hname, rfl, -⟩ :=
    freePlace_eq_ok_iff.mp hplace
  obtain ⟨n, hcomponents⟩ := Path.components_eq_trimmed path
  rw [locate_eq_ok_iff, hcomponents, htrimmed, List.append_assoc, hext.base]
  refine ⟨hcheck, hext.get? hstart,
    walkFrom_append_of_ne_nil (by simp) (fun k => ?_) (hext.walkFrom hparent)⟩
  rw [List.singleton_append, walkWith_cons, stride_of_isName hname, hdir]
  exact walkWith_idle fun x hx => Or.inl (List.eq_of_mem_replicate hx)

/-! ## New directories -/

/-- A new directory stands at the place that was free. -/
theorem createDir_eq_ok_iff :
    d.createDir path = .ok d' ↔
      ∃ place, d.freePlace path = .ok place ∧ d' = d.insert place .dir := by
  rw [createDir, bind_eq_ok_iff]
  simp [pure, Except.pure, eq_comm]

theorem ne_nil_of_freePlace (hplace : d.freePlace path = .ok place) : place ≠ [] := by
  obtain ⟨-, -, _, _, _, -, -, -, rfl, -⟩ := freePlace_eq_ok_iff.mp hplace
  simp

theorem get?_of_freePlace (hplace : d.freePlace path = .ok place) : d.get? place = none := by
  obtain ⟨-, -, _, _, _, -, -, -, -, hfree⟩ := freePlace_eq_ok_iff.mp hplace
  exact hfree

theorem extends_of_createDir (h : d.createDir path = .ok d') : d.Extends d' := by
  obtain ⟨place, hplace, rfl⟩ := createDir_eq_ok_iff.mp h
  exact extends_insert (ne_nil_of_freePlace hplace) (get?_of_freePlace hplace)

/-- The path of a new directory leads to it. -/
theorem exists_place_of_createDir (h : d.createDir path = .ok d') :
    ∃ place, d.freePlace path = .ok place ∧ d' = d.insert place .dir ∧
      ∀ follow, d'.locate follow path = .ok (place, .dir) := by
  obtain ⟨place, hplace, rfl⟩ := createDir_eq_ok_iff.mp h
  refine ⟨place, hplace, rfl, locate_of_freePlace hplace (extends_of_createDir h) ?_⟩
  rw [get?_insert (ne_nil_of_freePlace hplace), if_pos rfl]

/-! ## Sound disks stay sound -/

namespace Sound

/-- A disk with nothing on it. -/
def empty : Sound where
  wellFormed := ⟨by simp, by simp, by simp⟩

/-- A sound disk stays sound if something gets a name in a directory. -/
theorem wellFormed_insert (d : Sound) {name : String} (hparent : d.get? parent = some .dir)
    (hname : Path.IsName name) (hfree : d.get? (parent ++ [name]) = none) :
    (d.insert (parent ++ [name]) e).WellFormed := by
  have hext : d.Extends (d.insert (parent ++ [name]) e) := extends_insert (by simp) hfree
  refine ⟨?_, ?_, ?_⟩
  · have hkept : ((d.entries.filter (·.1 ≠ parent ++ [name])).map Prod.fst).Nodup :=
      d.wellFormed.distinct.sublist (List.filter_sublist.map Prod.fst)
    simpa [Disk.insert] using hkept
  · intro x hx
    rcases List.mem_cons.mp hx with rfl | hx
    · intro y hy
      rcases List.mem_append.mp hy with hy | hy
      · exact d.isName hparent y hy
      · exact List.mem_singleton.mp hy ▸ hname
    · exact d.wellFormed.named x (List.mem_filter.mp hx).1
  · intro x hx
    rcases List.mem_cons.mp hx with rfl | hx
    · exact ⟨by simp, by simpa using hext.get? hparent⟩
    · obtain ⟨hne, habove⟩ := d.wellFormed.housed x (List.mem_filter.mp hx).1
      exact ⟨hne, hext.get? habove⟩

/-- A sound disk stays sound if a directory is made. -/
theorem wellFormed_createDir (d : Sound) (hmade : d.createDir path = .ok d') :
    d'.WellFormed := by
  obtain ⟨place, hplace, rfl⟩ := createDir_eq_ok_iff.mp hmade
  obtain ⟨-, hstart, above, name, parent, -, hparent, hname, rfl, hfree⟩ :=
    freePlace_eq_ok_iff.mp hplace
  exact d.wellFormed_insert (d.get?_of_walkFrom hstart hparent) hname hfree

/-- A sound disk stays sound if a tree is taken away. -/
theorem wellFormed_erase (d : Sound) (loc : Location) : (d.erase loc).WellFormed := by
  have hkept : ∀ x ∈ (d.erase loc).entries, x ∈ d.entries ∧ ¬ loc <+: x.1 := by
    intro x hx
    obtain ⟨hmem, hkeep⟩ := List.mem_filter.mp hx
    exact ⟨hmem, fun hstart => by simp [List.isPrefixOf_iff_prefix.mpr hstart] at hkeep⟩
  refine ⟨?_, ?_, ?_⟩
  · exact d.wellFormed.distinct.sublist (List.filter_sublist.map Prod.fst)
  · intro x hx
    exact d.wellFormed.named x (hkept x hx).1
  · intro x hx
    obtain ⟨hmem, houtside⟩ := hkept x hx
    have hne : loc ≠ [] := by
      rintro rfl
      exact houtside List.nil_prefix
    obtain ⟨hx, habove⟩ := d.wellFormed.housed x hmem
    refine ⟨hx, ?_⟩
    rw [get?_erase hne, if_neg fun hstart => houtside (hstart.trans (List.dropLast_prefix x.1))]
    exact habove

/-- A sound disk stays sound whether a tree can be removed or not. -/
theorem wellFormed_removeTree (d : Sound) (path : String) : (d.removeTree path).2.WellFormed := by
  unfold removeTree
  split
  · exact d.wellFormed
  · exact d.wellFormed
  · exact d.wellFormed_erase _

end Sound

end Disk

end GoSurface
