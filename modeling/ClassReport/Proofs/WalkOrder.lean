import ClassReport.FileSystem.Walk
import ClassReport.Proofs.PathNames
import ClassReport.Proofs.StableSorting

/-!
# The order of a walk

A walk gives each file to which names lead through real directories once, and the files in the order of
their names. Where a directory has too long a path, it fails with the first such directory in that same order
(`walked_visit`). Both come from what a single directory does to the walks of what stands in it
(`walked_flatMapM`, `Walked.enter`).
-/

namespace ClassReport.FileSystem

variable {fs : FileSystem} {path : String} {place : Location} {names : List String} {entry : Entry}

/-! ### Ways down -/

/-- The names lead from a place to an entry, through real directories only. -/
def Leads (fs : FileSystem) : Location → List String → Entry → Prop
  | place, [], entry => fs.get? place = some entry
  | place, name :: rest, entry =>
    fs.get? place = some .directory ∧ Leads fs (place ++ [name]) rest entry

theorem Leads.get? (h : Leads fs place names entry) : fs.get? (place ++ names) = some entry := by
  induction names generalizing place with
  | nil =>
    rw [List.append_nil]
    exact h
  | cons name rest ih =>
    rw [List.append_cons]
    exact ih h.2

theorem Leads.exists_get? (h : Leads fs place names entry) : ∃ first, fs.get? place = some first := by
  cases names with
  | nil => exact ⟨entry, h⟩
  | cons name rest => exact ⟨.directory, h.1⟩

/-- Nothing leads on from what is no directory. -/
theorem leads_iff_of_ne {first : Entry} (hget : fs.get? place = some first) (hne : first ≠ .directory) :
    Leads fs place names entry ↔ names = [] ∧ entry = first := by
  cases names with
  | nil => simp [Leads, hget, eq_comm]
  | cons name rest => simp [Leads, hget, hne]

/-! ### The names in a directory -/

/-- The table has one entry for a location. -/
def IsKeyed (fs : FileSystem) : Prop := fs.entries.Pairwise fun a b => a.1 ≠ b.1

instance (fs : FileSystem) : Decidable (IsKeyed fs) :=
  inferInstanceAs (Decidable (fs.entries.Pairwise fun a b => a.1 ≠ b.1))

theorem entryAt_of_mem {entries : List (Location × Entry)}
    (hkeyed : entries.Pairwise fun a b => a.1 ≠ b.1) {location : Location} {entry : Entry}
    (h : (location, entry) ∈ entries) : entryAt location entries = some entry := by
  induction entries with
  | nil => cases h
  | cons first rest ih =>
    obtain ⟨hfirst, hrest⟩ := List.pairwise_cons.mp hkeyed
    rcases List.mem_cons.mp h with rfl | h
    · rw [entryAt, if_pos rfl]
    · rw [entryAt, if_neg (hfirst _ h)]
      exact ih hrest h

theorem nameIn?_eq_some_iff {item : Location × Entry} {name : String} :
    nameIn? place item = some name ↔ item.1 = place ++ [name] := by
  rw [nameIn?]
  constructor
  · intro h
    split at h
    · rename_i hplace
      obtain ⟨front, hfront⟩ := List.getLast?_eq_some_iff.mp h
      rw [hfront, List.dropLast_concat] at hplace
      rw [hfront, hplace]
    · cases h
  · intro h
    rw [h, List.dropLast_concat, if_pos rfl, List.getLast?_concat]

theorem mem_namesIn_iff (hkeyed : IsKeyed fs) {name : String} :
    name ∈ fs.namesIn place ↔ ∃ entry, fs.get? (place ++ [name]) = some entry := by
  have hget : fs.get? (place ++ [name]) = entryAt (place ++ [name]) fs.entries := if_neg (by simp)
  rw [namesIn, List.mem_mergeSort, List.mem_filterMap, hget]
  constructor
  · rintro ⟨⟨location, entry⟩, hmem, hname⟩
    obtain rfl : location = place ++ [name] := nameIn?_eq_some_iff.mp hname
    exact ⟨entry, entryAt_of_mem hkeyed hmem⟩
  · rintro ⟨entry, hentry⟩
    exact ⟨_, mem_of_entryAt hentry, nameIn?_eq_some_iff.mpr rfl⟩

theorem IsKeyed.pairwise_namesIn (hkeyed : IsKeyed fs) (place : Location) :
    (fs.namesIn place).Pairwise (· < ·) := by
  have hdistinct : (fs.entries.filterMap (nameIn? place)).Pairwise (· ≠ ·) := by
    refine List.pairwise_filterMap.mpr (hkeyed.imp ?_)
    intro item other hne name hname next hnext heq
    rw [nameIn?_eq_some_iff] at hname hnext
    exact hne (by rw [hname, hnext, heq])
  have hkept : (fs.namesIn place).Pairwise (· ≠ ·) :=
    (List.mergeSort_perm _ _).symm.pairwise hdistinct Ne.symm
  have hsorted : (fs.namesIn place).Pairwise (· ≤ ·) :=
    pairwise_mergeSort_key id (fs.entries.filterMap (nameIn? place))
  exact (hsorted.and hkept).imp fun h => Std.lt_of_le_of_ne h.1 h.2

theorem Leads.mem_entries (h : Leads fs place names entry) (hplace : place ≠ []) :
    (place ++ names, entry) ∈ fs.entries := by
  have hget := h.get?
  rw [FileSystem.get?, if_neg (List.append_ne_nil_of_left_ne_nil hplace _)] at hget
  exact mem_of_entryAt hget

theorem length_le_depth (h : fs.get? place = some entry) : place.length ≤ fs.depth := by
  rw [FileSystem.get?] at h
  split at h
  · rename_i hroot
    rw [hroot]
    exact Nat.zero_le _
  · have hmem := mem_of_entryAt h
    rw [depth]
    generalize fs.entries = entries at hmem
    induction entries with
    | nil => cases hmem
    | cons item entries ih =>
      rw [List.foldr_cons]
      rcases List.mem_cons.mp hmem with rfl | hmem
      · exact Nat.le_max_left _ _
      · exact Nat.le_trans (ih hmem) (Nat.le_max_right _ _)

/-! ### What a walk gives -/

/-- What a walk from a path has to give where names lead to entries in some way: the files in the order of the
names, or else the first directory of too long a path. -/
inductive Walked (path : String) (leads : List String → Entry → Prop) :
    Except WalkError (List String) → Prop
  | files {found : List (List String)} (hsorted : found.Pairwise (· < ·))
      (hfiles : ∀ names, names ∈ found ↔ ∃ content, leads names (.file content))
      (hopens : ∀ names, leads names .directory →
        (Path.below path names).utf8ByteSize ≤ maxPathLength) :
      Walked path leads (.ok (found.map (Path.below path)))
  | refused {names : List String} (hdirectory : leads names .directory)
      (hlong : maxPathLength < (Path.below path names).utf8ByteSize)
      (hfirst : ∀ others, leads others .directory →
        maxPathLength < (Path.below path others).utf8ByteSize → ¬ others < names) :
      Walked path leads (.error ⟨Path.below path names, .nameTooLong⟩)

variable {leads after : List String → Entry → Prop} {result further : Except WalkError (List String)}

theorem Walked.congr (h : Walked path leads result)
    (hsame : ∀ names entry, leads names entry ↔ after names entry) : Walked path after result := by
  have heq : leads = after := funext fun names => funext fun entry => propext (hsame names entry)
  rwa [heq] at h

theorem Walked.nothing (hfile : ∀ names content, ¬ leads names (.file content))
    (hdirectory : ∀ names, ¬ leads names .directory) : Walked path leads (.ok []) := by
  show Walked path leads (.ok (([] : List (List String)).map (Path.below path)))
  refine .files .nil (fun names => ?_) fun names h => absurd h (hdirectory names)
  simp [hfile]

theorem Walked.file {content : Bytes} :
    Walked path (fun names entry => names = [] ∧ entry = .file content) (.ok [path]) := by
  show Walked path _ (.ok ([[]].map (Path.below path)))
  refine .files (List.pairwise_singleton _ _) (fun names => ?_) fun names h => nomatch h.2
  simp

/-- A walk that starts one name further down. -/
theorem Walked.shift {name : String} (h : Walked (Path.join path name) leads result) :
    Walked path (fun names entry => ∃ rest, names = name :: rest ∧ leads rest entry) result := by
  cases h with
  | @files found hsorted hfiles hopens =>
    have hpaths : found.map (Path.below (Path.join path name)) =
        (found.map (name :: ·)).map (Path.below path) := by
      rw [List.map_map]
      rfl
    rw [hpaths]
    refine .files ?_ (fun names => ?_) ?_
    · exact List.pairwise_map.mpr (hsorted.imp fun hlt => List.cons_lt_cons_iff.mpr (.inr ⟨rfl, hlt⟩))
    · rw [List.mem_map]
      constructor
      · rintro ⟨rest, hrest, rfl⟩
        obtain ⟨content, hcontent⟩ := (hfiles rest).mp hrest
        exact ⟨content, rest, rfl, hcontent⟩
      · rintro ⟨content, rest, rfl, hcontent⟩
        exact ⟨rest, (hfiles rest).mpr ⟨content, hcontent⟩, rfl⟩
    · rintro names ⟨rest, rfl, hrest⟩
      exact hopens rest hrest
  | @refused first hdirectory hlong hfirst =>
    show Walked path _ (.error ⟨Path.below path (name :: first), .nameTooLong⟩)
    refine .refused ⟨first, rfl, hdirectory⟩ hlong ?_
    rintro others ⟨rest, rfl, hrest⟩ hother
    intro hlt
    rcases List.cons_lt_cons_iff.mp hlt with hname | ⟨-, hlt⟩
    · exact String.lt_irrefl _ hname
    · exact hfirst rest hrest hother hlt

/-- Of two walks the second comes after all of the first, or not at all. -/
theorem Walked.append (h : Walked path leads result) (hafter : Walked path after further)
    (hlt : ∀ names others entry entry', leads names entry → after others entry' → names < others) :
    Walked path (fun names entry => leads names entry ∨ after names entry)
      (do return (← result) ++ (← further)) := by
  cases h with
  | @refused first hdirectory hlong hfirst =>
    refine .refused (.inl hdirectory) hlong ?_
    rintro others (hothers | hothers) hother
    · exact hfirst others hothers hother
    · exact List.lt_asymm (hlt first others _ _ hdirectory hothers)
  | @files found hsorted hfiles hopens =>
    cases hafter with
    | @refused first hdirectory hlong hfirst =>
      refine .refused (.inr hdirectory) hlong ?_
      rintro others (hothers | hothers) hother
      · exact absurd (hopens others hothers) (Nat.not_le.mpr hother)
      · exact hfirst others hothers hother
    | @files found' hsorted' hfiles' hopens' =>
      show Walked path _ (.ok (found.map (Path.below path) ++ found'.map (Path.below path)))
      rw [← List.map_append]
      refine .files ?_ (fun names => ?_) ?_
      · refine List.pairwise_append.mpr ⟨hsorted, hsorted', fun names hnames others hothers => ?_⟩
        obtain ⟨content, hcontent⟩ := (hfiles names).mp hnames
        obtain ⟨content', hcontent'⟩ := (hfiles' others).mp hothers
        exact hlt names others _ _ hcontent hcontent'
      · rw [List.mem_append, hfiles, hfiles', ← exists_or]
      · rintro names (hnames | hnames)
        · exact hopens names hnames
        · exact hopens' names hnames

/-- The walks of what stands in a directory, one after the other. -/
theorem walked_flatMapM {names : List String} (hsorted : names.Pairwise (· < ·))
    {meet : String → Except WalkError (List String)} {leads : String → List String → Entry → Prop}
    (hmeet : ∀ name ∈ names, Walked (Path.join path name) (leads name) (meet name)) :
    Walked path
      (fun below entry => ∃ name ∈ names, ∃ rest, below = name :: rest ∧ leads name rest entry)
      (names.flatMapM meet) := by
  induction names with
  | nil => exact .nothing (by simp) (by simp)
  | cons name names ih =>
    obtain ⟨hfirst, hrest⟩ := List.pairwise_cons.mp hsorted
    have hhead := (hmeet name List.mem_cons_self).shift
    have htail := ih hrest fun other hother => hmeet other (List.mem_cons_of_mem _ hother)
    rw [List.flatMapM_cons]
    refine (hhead.append htail ?_).congr fun below entry => ?_
    · rintro _ _ _ _ ⟨rest, rfl, -⟩ ⟨other, hother, rest', rfl, -⟩
      exact List.cons_lt_cons_iff.mpr (.inl (hfirst other hother))
    · simp only [List.mem_cons, exists_eq_or_imp]

/-- A directory that can be opened adds itself, in front of everything in it. -/
theorem Walked.enter (h : Walked path leads result) (hpath : path.utf8ByteSize ≤ maxPathLength) :
    Walked path (fun names entry => (names = [] ∧ entry = .directory) ∨ leads names entry) result := by
  cases h with
  | @files found hsorted hfiles hopens =>
    refine .files hsorted (fun names => ?_) ?_
    · rw [hfiles]
      simp
    · rintro names (⟨rfl, -⟩ | hnames)
      · exact hpath
      · exact hopens names hnames
  | @refused first hdirectory hlong hfirst =>
    refine .refused (.inr hdirectory) hlong ?_
    rintro others (⟨rfl, -⟩ | hothers) hother
    · exact absurd hpath (Nat.not_le.mpr hother)
    · exact hfirst others hothers hother

theorem leads_directory_iff (hkeyed : IsKeyed fs) (hget : fs.get? place = some .directory) :
    Leads fs place names entry ↔ (names = [] ∧ entry = .directory) ∨
      ∃ name ∈ fs.namesIn place, ∃ rest,
        names = name :: rest ∧ Leads fs (place ++ [name]) rest entry := by
  cases names with
  | nil => simp [Leads, hget, eq_comm]
  | cons name rest =>
    have hname : Leads fs (place ++ [name]) rest entry → name ∈ fs.namesIn place := fun h =>
      (mem_namesIn_iff hkeyed).mpr h.exists_get?
    simp only [Leads, hget, true_and, List.cons_ne_nil, false_and, false_or, List.cons.injEq]
    constructor
    · intro h
      exact ⟨name, hname h, rest, ⟨rfl, rfl⟩, h⟩
    · rintro ⟨_, -, _, ⟨rfl, rfl⟩, h⟩
      exact h

/-- Where no file and no directory stands there is nothing to meet. -/
theorem walked_nothing (h : ∀ first, fs.get? place = some first →
    first ≠ .directory ∧ ∀ content, first ≠ .file content) :
    Walked path (Leads fs place) (.ok []) := by
  have hother {names : List String} {entry : Entry} (hleads : Leads fs place names entry) :
      entry ≠ .directory ∧ ∀ content, entry ≠ .file content := by
    obtain ⟨first, hfirst⟩ := hleads.exists_get?
    obtain ⟨-, rfl⟩ := (leads_iff_of_ne hfirst (h first hfirst).1).mp hleads
    exact h entry hfirst
  exact .nothing (fun names content hleads => (hother hleads).2 content rfl) fun names hleads =>
    (hother hleads).1 rfl

/-- A walk gives what stands at a place and below it, if it goes down far enough. -/
theorem walked_visit (hkeyed : IsKeyed fs) {levels : Nat}
    (hlevels : fs.depth < place.length + levels) :
    Walked path (Leads fs place) (fs.visit levels path place) := by
  induction levels generalizing path place with
  | zero =>
    refine walked_nothing fun first hfirst => ?_
    have hlength := length_le_depth hfirst
    omega
  | succ levels ih =>
    rw [visit]
    cases hget : fs.get? place with
    | none => exact walked_nothing (by simp [hget])
    | some first =>
      cases first with
      | file content => exact Walked.file.congr fun names entry => (leads_iff_of_ne hget nofun).symm
      | link target => exact walked_nothing (by simp [hget])
      | fullDevice => exact walked_nothing (by simp [hget])
      | directory =>
        by_cases hpath : path.utf8ByteSize > maxPathLength
        · rw [if_pos hpath]
          show Walked path _ (.error ⟨Path.below path [], .nameTooLong⟩)
          exact .refused hget hpath fun others _ _ => List.not_lt_nil _
        · rw [if_neg hpath]
          have hbelow (name : String) : Walked (Path.join path name) (Leads fs (place ++ [name]))
              (fs.visit levels (Path.join path name) (place ++ [name])) := by
            refine ih ?_
            rw [List.length_append, List.length_singleton]
            omega
          have hall := walked_flatMapM (hkeyed.pairwise_namesIn place) fun name _ => hbelow name
          exact (hall.enter (Nat.not_lt.mp hpath)).congr fun names entry =>
            (leads_directory_iff hkeyed hget).symm

theorem walked_walk (hkeyed : IsKeyed fs) (hinput : Path.isStandardInput path = false)
    (hfind : fs.find path = .ok (place, entry)) : Walked path (Leads fs place) (fs.walk path) := by
  rw [walk, hinput, hfind]
  exact walked_visit hkeyed (by omega)

end ClassReport.FileSystem
