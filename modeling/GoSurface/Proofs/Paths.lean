/-
# Where paths lead

The path of something below a root is the root's path, a slash and the names between them.  What it
leads to is decided in two parts.  The root's path is walked with all that paths can do: empty
names, steps up, links.  From the directory reached there, where no links stand, the names lead to
the location with these names added, if something is there.

* `Disk.WellFormed`, `Disk.Sound`: a tree of directories with sound names, and disks that are one;
* `Disk.stride`: what one name of a path does;
* `Disk.locate_pathBelow_iff`: what a path below a root leads to.
-/
import GoSurface.Directories
import GoSurface.Proofs.Partners
import Mathlib.Data.List.Induction

namespace GoSurface

/-- A call that goes on after another one succeeds if both do. -/
theorem bind_eq_ok_iff {ε α β : Type} {x : Except ε α} {k : α → Except ε β} {b : β} :
    (x >>= k) = .ok b ↔ ∃ a, x = .ok a ∧ k a = .ok b := by
  cases x <;> simp [bind, Except.bind]

/-! ## Splitting at separators -/

section Splitting

variable {α : Type} [DecidableEq α] {sep : α}

/-- A separator between two lists splits them apart. -/
theorem splitOnSep_append (as bs : List α) :
    splitOnSep sep (as ++ sep :: bs) = splitOnSep sep as ++ splitOnSep sep bs := by
  induction as with
  | nil => simp [splitOnSep]
  | cons a as ih =>
    by_cases ha : a = sep
    · simp [splitOnSep, ha, ih]
    · rw [List.cons_append, splitOnSep, splitOnSep, if_neg ha, if_neg ha, ih]
      rcases hpieces : splitOnSep sep as with _ | ⟨p, ps⟩
      · exact absurd hpieces (splitOnSep_ne_nil sep as)
      · rfl

/-- A list without the separator is one piece. -/
theorem splitOnSep_of_not_mem {as : List α} (h : sep ∉ as) : splitOnSep sep as = [as] := by
  induction as with
  | nil => rfl
  | cons a as ih =>
    rw [List.mem_cons, not_or] at h
    rw [splitOnSep, if_neg (Ne.symm h.1), ih h.2]

/-- Pieces with separators between them are found again. -/
theorem splitOnSep_intercalate {ps : List (List α)} (hne : ps ≠ []) (h : ∀ p ∈ ps, sep ∉ p) :
    splitOnSep sep ([sep].intercalate ps) = ps := by
  induction ps with
  | nil => exact absurd rfl hne
  | cons p ps ih =>
    have hp : splitOnSep sep p = [p] := splitOnSep_of_not_mem (h p (by simp))
    cases ps with
    | nil => simpa [List.intercalate] using hp
    | cons q qs =>
      have hrest := ih (by simp) fun x hx => h x (by simp [hx])
      have hsplit : [sep].intercalate (p :: q :: qs) = p ++ sep :: [sep].intercalate (q :: qs) := by
        simp [List.intercalate]
      rw [hsplit, splitOnSep_append, hp, hrest]
      rfl

end Splitting

/-! ## Names and components -/

namespace Path

/-- A name that something in a directory can have. -/
structure IsName (name : String) : Prop where
  ne_empty : name ≠ ""
  ne_here : name ≠ "."
  ne_above : name ≠ ".."
  slashless : '/' ∉ name.toList
  short : name.utf8ByteSize ≤ Disk.maxName

instance (name : String) : Decidable (IsName name) :=
  decidable_of_iff
    (name ≠ "" ∧ name ≠ "." ∧ name ≠ ".." ∧ '/' ∉ name.toList ∧ name.utf8ByteSize ≤ Disk.maxName)
    ⟨fun ⟨h₁, h₂, h₃, h₄, h₅⟩ => ⟨h₁, h₂, h₃, h₄, h₅⟩, fun h => ⟨h.1, h.2, h.3, h.4, h.5⟩⟩

@[simp] theorem components_empty : components "" = [""] := by
  simp [components, splitOnSep]

/-- A slash between two paths divides their components. -/
theorem components_append (p q : String) :
    components (p ++ "/" ++ q) = components p ++ components q := by
  have hsep : (p ++ "/" ++ q).toList = p.toList ++ '/' :: q.toList := by simp
  rw [components, hsep, splitOnSep_append, List.map_append]
  rfl

/-- Names with slashes between them are the components. -/
theorem components_intercalate {names : List String} (hne : names ≠ [])
    (hnames : ∀ name ∈ names, IsName name) : components ("/".intercalate names) = names := by
  have htext : ("/".intercalate names).toList = ['/'].intercalate (names.map String.toList) := by
    simp
  have hslashless : ∀ p ∈ names.map String.toList, '/' ∉ p := by
    intro p hp
    obtain ⟨name, hname, rfl⟩ := List.mem_map.mp hp
    exact (hnames name hname).slashless
  rw [components, htext, splitOnSep_intercalate (by simpa using hne) hslashless, List.map_map]
  simp [Function.comp_def]

/-- Names with slashes between them start with no slash. -/
theorem isAbsolute_intercalate {names : List String} (hnames : ∀ name ∈ names, IsName name) :
    isAbsolute ("/".intercalate names) = false := by
  cases names with
  | nil => rfl
  | cons name names =>
    have hname := hnames name (by simp)
    obtain ⟨c, cs, hcs⟩ : ∃ c cs, name.toList = c :: cs :=
      List.exists_cons_of_ne_nil (by simpa using hname.ne_empty)
    have hc : c ≠ '/' := by
      rintro rfl
      exact hname.slashless (by simp [hcs])
    cases names <;> simp [isAbsolute, List.intercalate, hcs, hc]

/-- A path joined to another one follows a slash; the first one may bring it. -/
theorem join_eq {root : String} (hroot : root ≠ "") :
    ∃ stem, (root = stem ∨ root = stem ++ "/") ∧
      ∀ part, isAbsolute part = false → join root part = stem ++ "/" ++ part := by
  have hempty : root.isEmpty = false := by simpa using hroot
  by_cases hopen : endsOpen root = true
  · obtain ⟨init, hinit⟩ : ∃ init, root.toList = init ++ ['/'] :=
      List.getLast?_eq_some_iff.mp (by simpa [endsOpen] using hopen)
    have hstem : root = String.ofList init ++ "/" := by
      rw [← String.toList_inj, hinit]
      simp
    refine ⟨String.ofList init, Or.inr hstem, ?_⟩
    intro part hpart
    rw [join, hpart, hempty, Bool.or_false, if_neg (by simp), if_pos hopen, ← hstem]
  · refine ⟨root, Or.inl rfl, ?_⟩
    intro part hpart
    rw [join, hpart, hempty, Bool.or_false, if_neg (by simp), if_neg hopen]

/-- A path joined to another one is not empty. -/
theorem join_ne_empty {root part : String} (hroot : root ≠ "") (hpart : isAbsolute part = false) :
    join root part ≠ "" := by
  obtain ⟨stem, -, hjoin⟩ := join_eq hroot
  rw [hjoin part hpart]
  simp

theorem isAbsolute_append {root : String} (hroot : root ≠ "") (tail : String) :
    isAbsolute (root ++ tail) = isAbsolute root := by
  have hne : root.toList ≠ [] := by simpa using hroot
  rw [isAbsolute, isAbsolute, String.toList_append, List.head?_append_of_ne_nil _ hne]

end Path

namespace Disk

variable {d : Disk}

/-! ## Sound disks -/

/-- A disk that is a tree: every location is taken once, names are names, and everything stands in
a directory.  The working directory may be gone. -/
structure WellFormed (d : Disk) : Prop where
  distinct : (d.entries.map Prod.fst).Nodup
  named : ∀ x ∈ d.entries, ∀ name ∈ x.1, Path.IsName name
  housed : ∀ x ∈ d.entries, x.1 ≠ [] ∧ d.get? x.1.dropLast = some .dir

/-- A disk together with the fact that it is a tree. -/
structure Sound extends Disk where
  wellFormed : toDisk.WellFormed

instance : Coe Sound Disk := ⟨Sound.toDisk⟩

/-- No links stand at a location or below it. -/
def LinkFree (d : Disk) (loc : Location) : Prop :=
  ∀ names target, d.get? (loc ++ names) ≠ some (.link target)

/-- What has no links has none further below. -/
theorem LinkFree.append {loc : Location} (h : d.LinkFree loc) (names : List String) :
    d.LinkFree (loc ++ names) := by
  intro more target
  rw [List.append_assoc]
  exact h _ _

/-- No links stand on the way from a location along some names. -/
def Clear (d : Disk) (loc : Location) (names : List String) : Prop :=
  ∀ {start}, start <+: names → ∀ target, d.get? (loc ++ start) ≠ some (.link target)

theorem LinkFree.clear {loc : Location} (h : d.LinkFree loc) (names : List String) :
    d.Clear loc names :=
  fun _ => h _

/-- The rest of a way without links has none either. -/
theorem Clear.tail {loc : Location} {name : String} {names : List String}
    (h : d.Clear loc (name :: names)) : d.Clear (loc ++ [name]) names := by
  intro start hstart target
  rw [List.append_assoc]
  exact h (List.prefix_cons_inj name |>.mpr hstart) target

@[simp] theorem get?_nil : d.get? [] = some .dir := rfl

/-- What stands below the root stands among the entries. -/
theorem Sound.get?_eq_some_iff (d : Sound) {loc : Location} (hne : loc ≠ [])
    {e : Entry} : d.get? loc = some e ↔ (loc, e) ∈ d.entries := by
  rw [get?, if_neg hne, Option.map_eq_some_iff]
  constructor
  · rintro ⟨⟨l, e⟩, hfind, rfl⟩
    obtain ⟨hmem, rfl⟩ := (find?_key_eq_some_iff d.wellFormed.distinct).mp hfind
    exact hmem
  · intro hmem
    exact ⟨(loc, e), (find?_key_eq_some_iff d.wellFormed.distinct).mpr ⟨hmem, rfl⟩, rfl⟩

/-- What stands somewhere has names on the way to it. -/
theorem Sound.isName (d : Sound) {loc : Location} {e : Entry}
    (hget : d.get? loc = some e) : ∀ name ∈ loc, Path.IsName name := by
  by_cases hne : loc = []
  · simp [hne]
  · exact d.wellFormed.named _ ((d.get?_eq_some_iff hne).mp hget)

/-- What stands somewhere stands in a directory. -/
theorem Sound.get?_dropLast (d : Sound) {loc : Location} {e : Entry}
    (hget : d.get? loc = some e) : d.get? loc.dropLast = some .dir := by
  by_cases hne : loc = []
  · rw [hne, List.dropLast_nil, get?_nil]
  · exact (d.wellFormed.housed _ ((d.get?_eq_some_iff hne).mp hget)).2

/-- On the way to something there are directories. -/
theorem Sound.get?_of_append (d : Sound) {loc : Location} {names : List String}
    {e : Entry} (hget : d.get? (loc ++ names) = some e) (hne : names ≠ []) :
    d.get? loc = some .dir := by
  induction names using List.reverseRecOn generalizing e with
  | nil => exact absurd rfl hne
  | append_singleton names name ih =>
    have habove : d.get? (loc ++ names) = some .dir := by
      simpa [← List.append_assoc] using d.get?_dropLast hget
    by_cases hnil : names = []
    · simpa [hnil] using habove
    · exact ih habove hnil

/-! ## One name of a path -/

/-- What a name does on the way along a path. -/
inductive Stride where
  | onto (loc : Location)
  | stuck (fault : Fault)
  | atFile (content : Content)
  | atLink (target : String)

/-- Goes from a directory along one name, up to what it stands for. -/
def stride (d : Disk) (loc : Location) (name : String) : Stride :=
  if name = "" ∨ name = "." then .onto loc
  else if name = ".." then .onto loc.dropLast
  else if maxName < name.utf8ByteSize then .stuck .nameTooLong
  else
    match d.get? (loc ++ [name]) with
    | none => .stuck .notFound
    | some .dir => .onto (loc ++ [name])
    | some (.file content) => .atFile content
    | some (.link target) => .atLink target

variable {follow : Bool} {onLink : Location → List String → Except Fault (Location × Entry)}
  {loc loc' : Location} {r : Location × Entry}

/-- A walk takes one stride after another. -/
theorem walkWith_cons (name : String) (names : List String) :
    d.walkWith follow onLink loc (name :: names) =
      match d.stride loc name with
      | .onto loc' => d.walkWith follow onLink loc' names
      | .stuck fault => .error fault
      | .atFile content =>
        if names.isEmpty then .ok (loc ++ [name], .file content) else .error .notDirectory
      | .atLink target =>
        if names.isEmpty && !follow then .ok (loc ++ [name], .link target)
        else onLink (if Path.isAbsolute target then [] else loc)
          (Path.components target ++ names) := by
  rw [walkWith, stride]
  by_cases hhere : name = "" ∨ name = "."
  · rw [if_pos hhere, if_pos hhere]
  rw [if_neg hhere, if_neg hhere]
  by_cases habove : name = ".."
  · rw [if_pos habove, if_pos habove]
  rw [if_neg habove, if_neg habove]
  by_cases hlong : maxName < name.utf8ByteSize
  · rw [if_pos hlong, if_pos hlong]
  rw [if_neg hlong, if_neg hlong]
  rcases d.get? (loc ++ [name]) with _ | _ | _ | _ <;> rfl

/-- A name leads to what has it. -/
theorem stride_of_isName {name : String} (hname : Path.IsName name) :
    d.stride loc name =
      match d.get? (loc ++ [name]) with
      | none => .stuck .notFound
      | some .dir => .onto (loc ++ [name])
      | some (.file content) => .atFile content
      | some (.link target) => .atLink target := by
  have hhere : ¬(name = "" ∨ name = ".") := by simp [hname.ne_empty, hname.ne_here]
  rw [stride, if_neg hhere, if_neg hname.ne_above, if_neg (Nat.not_lt.mpr hname.short)]

/-- Strides go from directory to directory. -/
theorem Sound.get?_of_stride (d : Sound) (hloc : d.get? loc = some .dir)
    {name : String} (hstride : d.stride loc name = .onto loc') : d.get? loc' = some .dir := by
  rw [stride] at hstride
  split at hstride
  · cases hstride
    exact hloc
  split at hstride
  · cases hstride
    exact d.get?_dropLast hloc
  split at hstride
  · cases hstride
  split at hstride <;> cases hstride
  assumption

/-! ## Walks -/

/-- Where no links stand, names lead to the location that they make up. -/
theorem Sound.walkWith_eq_ok_iff (d : Sound) (hloc : d.get? loc = some .dir)
    {names : List String} (hclear : d.Clear loc names)
    (hnames : ∀ name ∈ names, Path.IsName name) :
    d.walkWith follow onLink loc names = .ok r ↔
      r.1 = loc ++ names ∧ d.get? (loc ++ names) = some r.2 := by
  induction names generalizing loc with
  | nil =>
    rw [walkWith, List.append_nil, hloc, Except.ok.injEq, Option.some.injEq]
    constructor
    · rintro rfl
      exact ⟨rfl, rfl⟩
    · rintro ⟨hfst, hsnd⟩
      exact Prod.ext hfst.symm hsnd
  | cons name names ih =>
    have hname := hnames name (by simp)
    have hrest : ∀ x ∈ names, Path.IsName x := fun x hx => hnames x (by simp [hx])
    have happend : loc ++ name :: names = (loc ++ [name]) ++ names := by simp
    -- names after something that is no directory lead nowhere
    have hstop : d.get? (loc ++ [name]) ≠ some .dir → names ≠ [] →
        d.get? (loc ++ name :: names) ≠ some r.2 := by
      intro hdir hne hsome
      rw [happend] at hsome
      exact hdir (d.get?_of_append hsome hne)
    rw [walkWith_cons, stride_of_isName hname]
    cases hget : d.get? (loc ++ [name]) with
    | none =>
      by_cases hne : names = []
      · simp [hne, hget]
      · simp [hstop (by simp [hget]) hne]
    | some e =>
      cases e with
      | dir =>
        rw [happend]
        exact ih hget hclear.tail hrest
      | file content =>
        by_cases hne : names = []
        · simp [hne, hget, Prod.ext_iff, eq_comm]
        · simp [hne, hstop (by simp [hget]) hne]
      | link target => exact absurd hget (hclear (by simp) target)

variable {xs ys : List String}

/-- A walk that succeeds passes a directory before the last names, and goes on from there. -/
theorem exists_of_walkWith_append (hys : ys ≠ [])
    (honLink : ∀ base names, onLink base (names ++ ys) = .ok r →
      ∃ mid, onLink base names = .ok (mid, .dir) ∧ ∃ k, d.walkWith true k mid ys = .ok r)
    (hwalk : d.walkWith true onLink loc (xs ++ ys) = .ok r) :
    ∃ mid, d.walkWith true onLink loc xs = .ok (mid, .dir) ∧
      ∃ k, d.walkWith true k mid ys = .ok r := by
  induction xs generalizing loc with
  | nil => exact ⟨loc, rfl, onLink, hwalk⟩
  | cons x xs ih =>
    rw [List.cons_append, walkWith_cons] at hwalk
    rw [walkWith_cons]
    cases hstride : d.stride loc x with
    | onto next =>
      rw [hstride] at hwalk
      exact ih hwalk
    | stuck fault => simp [hstride] at hwalk
    | atFile content => simp [hstride, hys] at hwalk
    | atLink target =>
      simp only [hstride, Bool.not_true, Bool.and_false, Bool.false_eq_true, if_false,
        ← List.append_assoc] at hwalk ⊢
      exact honLink _ _ hwalk

/-- A walk that ends at a directory can go on from there. -/
theorem walkWith_append {mid : Location} {res : Except Fault (Location × Entry)}
    (hrest : ∀ k, d.walkWith true k mid ys = res)
    (honLink : ∀ base names, onLink base names = .ok (mid, .dir) → onLink base (names ++ ys) = res)
    (hwalk : d.walkWith true onLink loc xs = .ok (mid, .dir)) :
    d.walkWith true onLink loc (xs ++ ys) = res := by
  induction xs generalizing loc with
  | nil =>
    cases hwalk
    exact hrest onLink
  | cons x xs ih =>
    rw [walkWith_cons] at hwalk
    rw [List.cons_append, walkWith_cons]
    cases hstride : d.stride loc x with
    | onto next =>
      rw [hstride] at hwalk
      exact ih hwalk
    | stuck fault => simp [hstride] at hwalk
    | atFile content => by_cases hxs : xs = [] <;> simp [hstride, hxs] at hwalk
    | atLink target =>
      simp only [hstride, Bool.not_true, Bool.and_false, Bool.false_eq_true, if_false,
        ← List.append_assoc] at hwalk ⊢
      exact honLink _ _ hwalk

/-- A directory at the end of a walk is one on the disk. -/
theorem Sound.get?_of_walkWith (d : Sound) (hloc : d.get? loc = some .dir)
    (honLink : ∀ base names, d.get? base = some .dir → onLink base names = .ok (loc', .dir) →
      d.get? loc' = some .dir)
    (hwalk : d.walkWith follow onLink loc xs = .ok (loc', .dir)) : d.get? loc' = some .dir := by
  induction xs generalizing loc with
  | nil =>
    cases hwalk
    exact hloc
  | cons x xs ih =>
    rw [walkWith_cons] at hwalk
    cases hstride : d.stride loc x with
    | onto next =>
      rw [hstride] at hwalk
      exact ih (d.get?_of_stride hloc hstride) hwalk
    | stuck fault => simp [hstride] at hwalk
    | atFile content => by_cases hxs : xs = [] <;> simp [hstride, hxs] at hwalk
    | atLink target =>
      simp only [hstride] at hwalk
      split at hwalk
      · simp at hwalk
      · refine honLink _ _ ?_ hwalk
        split
        · rfl
        · exact hloc

/-! Each of these carries over to walks with a bound on the links.  A link is followed with one
link less, from another directory and along other names, so the induction is on the bound. -/

variable {n : Nat}

theorem exists_of_walkFrom_append (hys : ys ≠ [])
    (hwalk : d.walkFrom true n loc (xs ++ ys) = .ok r) :
    ∃ mid, d.walkFrom true n loc xs = .ok (mid, .dir) ∧
      ∃ k, d.walkWith true k mid ys = .ok r := by
  induction n generalizing loc xs with
  | zero => exact exists_of_walkWith_append hys (by simp) hwalk
  | succ n ih => exact exists_of_walkWith_append hys (fun _ _ => ih) hwalk

theorem walkFrom_append {mid : Location} {res : Except Fault (Location × Entry)}
    (hrest : ∀ k, d.walkWith true k mid ys = res)
    (hwalk : d.walkFrom true n loc xs = .ok (mid, .dir)) :
    d.walkFrom true n loc (xs ++ ys) = res := by
  induction n generalizing loc xs with
  | zero => exact walkWith_append hrest (by simp) hwalk
  | succ n ih => exact walkWith_append hrest (fun _ _ => ih) hwalk

theorem Sound.get?_of_walkFrom (d : Sound) (hloc : d.get? loc = some .dir)
    (hwalk : d.walkFrom follow n loc xs = .ok (loc', .dir)) : d.get? loc' = some .dir := by
  induction n generalizing loc xs with
  | zero => exact d.get?_of_walkWith hloc (by simp) hwalk
  | succ n ih => exact d.get?_of_walkWith hloc (fun _ _ => ih) hwalk

/-! ## Paths -/

/-- Paths start at directories. -/
theorem start_eq_ok_iff {path : String} :
    d.start path = .ok loc ↔ loc = d.base path ∧ d.get? loc = some .dir := by
  rw [start]
  constructor
  · intro hstart
    split at hstart
    · next hdir =>
      cases hstart
      exact ⟨rfl, hdir⟩
    · cases hstart
  · rintro ⟨rfl, hdir⟩
    simp [hdir]

/-- A path leads somewhere if a call can be given it, it starts at a directory and its components
lead there. -/
theorem locate_eq_ok_iff {path : String} :
    d.locate follow path = .ok r ↔ checkPath path = .ok () ∧ d.get? (d.base path) = some .dir ∧
      d.walkFrom follow maxLinks (d.base path) (Path.components path) = .ok r := by
  rw [locate, bind_eq_ok_iff]
  simp only [bind_eq_ok_iff, start_eq_ok_iff]
  constructor
  · rintro ⟨⟨⟩, hcheck, _, ⟨rfl, hbase⟩, hwalk⟩
    exact ⟨hcheck, hbase, hwalk⟩
  · rintro ⟨hcheck, hbase, hwalk⟩
    exact ⟨(), hcheck, _, ⟨rfl, hbase⟩, hwalk⟩

theorem openDir_eq_ok_iff {path : String} :
    d.openDir follow path = .ok loc ↔ d.locate follow path = .ok (loc, .dir) := by
  rw [openDir]
  rcases d.locate follow path with fault | ⟨l, _ | _ | _⟩ <;> simp

theorem leadsTo?_eq_some_iff {path : String} :
    d.leadsTo? follow path = some loc ↔ d.locate follow path = .ok (loc, .dir) := by
  rw [← openDir_eq_ok_iff, leadsTo?]
  cases d.openDir follow path <;> simp [Except.toOption]

theorem dirAt?_eq_some_iff {path : String} :
    d.dirAt? path = some loc ↔ d.locate true path = .ok (loc, .dir) :=
  leadsTo?_eq_some_iff

theorem Sound.get?_of_dirAt? (d : Sound) {path : String}
    (hdir : d.dirAt? path = some loc) : d.get? loc = some .dir := by
  obtain ⟨-, hbase, hwalk⟩ := locate_eq_ok_iff.mp (dirAt?_eq_some_iff.mp hdir)
  exact d.get?_of_walkFrom hbase hwalk

/-- Which paths a call can be given. -/
theorem checkPath_eq_ok_iff {path : String} :
    checkPath path = .ok () ↔
      '\x00' ∉ path.toList ∧ path ≠ "" ∧ path.utf8ByteSize < maxPath := by
  rw [checkPath]
  by_cases hnul : '\x00' ∈ path.toList
  · simp [hnul]
  by_cases hempty : path = ""
  · simp [hempty]
  by_cases hlong : maxPath ≤ path.utf8ByteSize
  · simp [hnul, hempty, hlong, Nat.not_lt.mpr hlong]
  · simp [hnul, hempty, hlong, Nat.not_le.mp hlong]

/-- The start of a path that a call can be given is one. -/
theorem checkPath_of_append {root tail : String} (hroot : root ≠ "")
    (hcheck : checkPath (root ++ tail) = .ok ()) : checkPath root = .ok () := by
  obtain ⟨hnul, -, hshort⟩ := checkPath_eq_ok_iff.mp hcheck
  rw [String.toList_append, List.mem_append, not_or] at hnul
  rw [String.utf8ByteSize_append] at hshort
  exact checkPath_eq_ok_iff.mpr ⟨hnul.1, hroot, by omega⟩

/-- A slash at the end of a path does not change the directory that it leads to. -/
theorem walkFrom_openEnd {root stem : String} (hstem : root = stem ∨ root = stem ++ "/") :
    d.walkFrom true n loc (Path.components root) = .ok (loc', .dir) ↔
      d.walkFrom true n loc (Path.components stem) = .ok (loc', .dir) := by
  rcases hstem with rfl | rfl
  · rfl
  have hparts : Path.components (stem ++ "/") = Path.components stem ++ [""] := by
    simpa using Path.components_append stem ""
  rw [hparts]
  constructor
  · intro hwalk
    obtain ⟨mid, hmid, k, hk⟩ := exists_of_walkFrom_append (by simp) hwalk
    simp only [walkWith, true_or, if_true, Except.ok.injEq, Prod.mk.injEq, and_true] at hk
    rwa [hk] at hmid
  · intro hwalk
    exact walkFrom_append (fun _ => by simp [walkWith]) hwalk

/-- Names with slashes between them are walked like the names. -/
theorem walkWith_components_intercalate {names : List String}
    (hnames : ∀ name ∈ names, Path.IsName name) :
    d.walkWith follow onLink loc (Path.components ("/".intercalate names)) =
      d.walkWith follow onLink loc names := by
  by_cases hne : names = []
  · -- no names make up the empty path, and its one component is empty
    subst hne
    simp [walkWith]
  · rw [Path.components_intercalate hne hnames]

/-! ## Paths below a root -/

section Below

variable {root : String} {names : List String}

/-- Paths below a root are its path, up to a slash, that slash and the names. -/
theorem exists_pathBelow_eq (hroot : root ≠ "") :
    ∃ stem, (root = stem ∨ root = stem ++ "/") ∧
      ∀ names, (∀ name ∈ names, Path.IsName name) →
        pathBelow root names = stem ++ "/" ++ "/".intercalate names := by
  obtain ⟨stem, hstem, hjoin⟩ := Path.join_eq hroot
  exact ⟨stem, hstem, fun names hnames => hjoin _ (Path.isAbsolute_intercalate hnames)⟩

/-- Paths below a root start with the root's path. -/
theorem exists_pathBelow_eq_append (hroot : root ≠ "")
    (hnames : ∀ name ∈ names, Path.IsName name) : ∃ tail, pathBelow root names = root ++ tail := by
  obtain ⟨stem, hstem, hbelow⟩ := exists_pathBelow_eq hroot
  rcases hstem with rfl | rfl
  · exact ⟨"/" ++ "/".intercalate names, by rw [hbelow names hnames, String.append_assoc]⟩
  · exact ⟨"/".intercalate names, hbelow names hnames⟩

/-- Paths below a root start with the root's path and a slash. -/
theorem pathBelow_eq_append (hroot : root ≠ "") (hnames : ∀ name ∈ names, Path.IsName name) :
    pathBelow root names = pathBelow root [] ++ "/".intercalate names := by
  obtain ⟨stem, -, hbelow⟩ := exists_pathBelow_eq hroot
  rw [hbelow names hnames, hbelow [] (by simp)]
  simp

theorem pathBelow_ne_empty (hroot : root ≠ "") (hnames : ∀ name ∈ names, Path.IsName name) :
    pathBelow root names ≠ "" := by
  obtain ⟨tail, htail⟩ := exists_pathBelow_eq_append hroot hnames
  simp [htail, hroot]

/-- The path of something below a root leads to the directory at the root, and from there along
the names. -/
theorem Sound.locate_pathBelow_iff (d : Sound) (hroot : root ≠ "")
    (hclear : ∀ loc, d.dirAt? root = some loc → d.Clear loc names)
    (hnames : ∀ name ∈ names, Path.IsName name) :
    d.locate true (pathBelow root names) = .ok r ↔
      checkPath (pathBelow root names) = .ok () ∧ ∃ loc, d.dirAt? root = some loc ∧
        r.1 = loc ++ names ∧ d.get? (loc ++ names) = some r.2 := by
  obtain ⟨stem, hstem, hbelow⟩ := exists_pathBelow_eq hroot
  obtain ⟨tail, htail⟩ := exists_pathBelow_eq_append hroot hnames
  have hbase : d.base (pathBelow root names) = d.base root := by
    rw [htail, base, base, Path.isAbsolute_append hroot]
  have hparts : Path.components (pathBelow root names) =
      Path.components stem ++ Path.components ("/".intercalate names) := by
    rw [hbelow names hnames, Path.components_append]
  rw [locate_eq_ok_iff, hbase, hparts]
  refine and_congr_right fun hcheck => ?_
  have hdirAt : ∀ loc, d.dirAt? root = some loc ↔ d.get? (d.base root) = some .dir ∧
      d.walkFrom true maxLinks (d.base root) (Path.components stem) = .ok (loc, .dir) := by
    have hcheckRoot : checkPath root = .ok () := checkPath_of_append hroot (htail ▸ hcheck)
    intro loc
    rw [dirAt?_eq_some_iff, locate_eq_ok_iff, walkFrom_openEnd hstem]
    simp [hcheckRoot]
  -- what the names lead to does not depend on the links that are left to follow
  have hwalk : ∀ {k mid}, d.dirAt? root = some mid →
      (d.walkWith true k mid (Path.components ("/".intercalate names)) = .ok r ↔
        r.1 = mid ++ names ∧ d.get? (mid ++ names) = some r.2) := by
    intro k mid hmid
    rw [walkWith_components_intercalate hnames,
      d.walkWith_eq_ok_iff (d.get?_of_dirAt? hmid) (hclear mid hmid) hnames]
  constructor
  · rintro ⟨hstart, hfrom⟩
    have hne : Path.components ("/".intercalate names) ≠ [] := by
      simp [Path.components, splitOnSep_ne_nil]
    obtain ⟨mid, hmid, k, hk⟩ := exists_of_walkFrom_append hne hfrom
    have hmid := (hdirAt mid).mpr ⟨hstart, hmid⟩
    exact ⟨mid, hmid, (hwalk hmid).mp hk⟩
  · rintro ⟨mid, hmid, hr⟩
    obtain ⟨hstart, hfrom⟩ := (hdirAt mid).mp hmid
    exact ⟨hstart, walkFrom_append (fun k => (hwalk hmid).mpr hr) hfrom⟩

/-- A path below a root leads to a directory if the root's directory has one there. -/
theorem Sound.dirAt?_pathBelow_iff (d : Sound) (hroot : root ≠ "")
    (hclear : ∀ loc, d.dirAt? root = some loc → d.Clear loc names)
    (hnames : ∀ name ∈ names, Path.IsName name) {l : Location} :
    d.dirAt? (pathBelow root names) = some l ↔
      checkPath (pathBelow root names) = .ok () ∧ ∃ loc, d.dirAt? root = some loc ∧
        l = loc ++ names ∧ d.get? (loc ++ names) = some .dir := by
  rw [dirAt?_eq_some_iff, d.locate_pathBelow_iff hroot hclear hnames]

/-- Opening a directory below a root by its path fails only if the path cannot be given. -/
theorem Sound.openDir_pathBelow (d : Sound) (hroot : root ≠ "")
    (hclear : ∀ loc, d.dirAt? root = some loc → d.Clear loc names)
    (hnames : ∀ name ∈ names, Path.IsName name) (hloc : d.dirAt? root = some loc)
    (hget : d.get? (loc ++ names) = some .dir) :
    d.openDir true (pathBelow root names) =
      (checkPath (pathBelow root names)).map fun _ => loc ++ names := by
  cases hcheck : checkPath (pathBelow root names) with
  | error fault => simp [openDir, locate, hcheck, bind, Except.bind, Except.map]
  | ok _ =>
    have hlocate := (d.locate_pathBelow_iff hroot hclear hnames (r := (loc ++ names, .dir))).mpr
      ⟨hcheck, loc, hloc, rfl, hget⟩
    exact openDir_eq_ok_iff.mpr hlocate

end Below

end Disk

end GoSurface
