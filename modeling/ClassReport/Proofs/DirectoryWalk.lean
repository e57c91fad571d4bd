import ClassReport.Proofs.FileWriting
import ClassReport.Proofs.WalkOrder
import Mathlib.Data.List.Sort

/-!
# The files of a directory

Where every directory can be opened, a walk meets the files below a directory in the order of their names,
and each of them can be read through the path that the walk gives it (`walk_eq`, `read_below`).
-/

namespace ClassReport.FileSystem

variable {fs : FileSystem} {root place : Location} {names : List String}

/-! ### Places below a directory -/

/-- Above everything that is there are directories. -/
theorem IsTree.isDirectoryAt_above (htree : IsTree fs) {more : List String} (hne : more ≠ [])
    {entry : Entry} (h : fs.get? (place ++ more) = some entry) : fs.isDirectoryAt place = true := by
  induction more generalizing place with
  | nil => exact absurd rfl hne
  | cons name rest ih =>
    have hstep {other : Entry} (hother : fs.get? (place ++ [name]) = some other) :
        fs.isDirectoryAt place = true := by
      have hdir := htree.isDirectoryAt_dropLast hother
      rw [List.dropLast_concat] at hdir
      exact hdir
    by_cases hnil : rest = []
    · rw [hnil] at h
      exact hstep h
    · rw [List.append_cons] at h
      exact hstep (isDirectoryAt_iff.mp (ih hnil h))

/-- In a tree every way to what is there leads through real directories. -/
theorem IsTree.leads_iff (htree : IsTree fs) {entry : Entry} :
    Leads fs place names entry ↔ fs.get? (place ++ names) = some entry := by
  refine ⟨Leads.get?, fun h => ?_⟩
  induction names generalizing place with
  | nil =>
    rw [List.append_nil] at h
    exact h
  | cons name rest ih =>
    have hdir := htree.isDirectoryAt_above (List.cons_ne_nil name rest) h
    rw [List.append_cons] at h
    exact ⟨isDirectoryAt_iff.mp hdir, ih h⟩

theorem reaches_below (htree : IsTree fs) (hnames : ∀ name ∈ names, IsName name)
    (hplace : fs.isDirectoryAt place = true) {entry : Entry} {links : Nat}
    (h : fs.get? (place ++ names) = some entry) (hlink : ∀ target, entry ≠ .link target) :
    Reaches fs false links false place names (.existing (place ++ names) entry) := by
  induction names generalizing place with
  | nil =>
    rw [List.append_nil] at h ⊢
    exact .done h nofun
  | cons name rest ih =>
    have hname := hnames name List.mem_cons_self
    have hrest : ∀ other ∈ rest, IsName other := fun other hother =>
      hnames other (List.mem_cons_of_mem _ hother)
    have hpass : Passes fs false false place name rest :=
      ⟨hplace, hname.ne_here, hname.ne_up, nofun, Nat.not_lt.mpr hname.short⟩
    rw [List.append_cons] at h ⊢
    by_cases hnil : rest = []
    · subst hnil
      rw [List.append_nil] at h ⊢
      exact .enter hpass h hlink (.done h nofun)
    · have hdir := htree.isDirectoryAt_above hnil h
      exact .enter hpass (isDirectoryAt_iff.mp hdir) nofun (ih hrest hdir h)

/-- What leads to a directory leads on to what is below it. -/
theorem Reaches.append {more : List String} {links : Nat} {slash : Bool} {result : Place}
    (h : Reaches fs false links slash place names (.existing root .directory)) (hne : more ≠ [])
    (hmore : ∀ links, Reaches fs false links false root more result) :
    Reaches fs false links false place (names ++ more) result := by
  -- The induction is on the way to the directory: its steps stay, and its end goes on.
  generalize hto : Place.existing root .directory = reached at h
  have hpasses {slash : Bool} {place : Location} {name : String} {rest : List String}
      (hp : Passes fs false slash place name rest) :
      Passes fs false false place name (rest ++ more) :=
    ⟨hp.directory, hp.ne_here, hp.ne_up, nofun, hp.short⟩
  induction h with
  | done h hslash =>
    cases hto
    exact hmore _
  | here hdir _ ih => exact .here hdir (ih hto)
  | up hdir _ ih => exact .up hdir (ih hto)
  | vacant hpass h => cases hto
  | enter hpass hentry hlink _ ih => exact .enter (hpasses hpass) hentry hlink (ih hto)
  | link hpass hentry _ ih =>
    refine .link (hpasses hpass) hentry ?_
    show Reaches fs false _ (false || ((_ ++ more).isEmpty && _)) _ (_ ++ (_ ++ more)) result
    rw [← List.append_assoc, Bool.false_or, List.isEmpty_eq_false_iff.mpr (by simp [hne]),
      Bool.false_and]
    exact ih hto

theorem find_eq_ok_iff {path : String} {location : Location} {entry : Entry} :
    fs.find path = .ok (location, entry) ↔
      fs.lookup false path = .ok (.existing location entry) := by
  rw [find]
  cases fs.lookup false path with
  | error e => simp
  | ok place =>
    cases place with
    | vacant location => simp
    | existing location entry => simp

theorem get?_of_find {path : String} {location : Location} {entry : Entry}
    (h : fs.find path = .ok (location, entry)) : fs.get? location = some entry :=
  (lookup_eq_ok_iff.mp (find_eq_ok_iff.mp h)).2.stands

/-- Names in the table are those of what stands somewhere. -/
theorem isName_of_get? (hnamed : ∀ item ∈ fs.entries, ∀ name ∈ item.1, IsName name) {entry : Entry}
    (h : fs.get? (place ++ names) = some entry) : ∀ name ∈ names, IsName name := by
  intro name hname
  have hne : place ++ names ≠ [] := List.append_ne_nil_of_right_ne_nil _ (List.ne_nil_of_mem hname)
  rw [get?, if_neg hne] at h
  exact hnamed _ (mem_of_entryAt h) name (List.mem_append_right _ hname)

/-- Paths below a directory, where those of the entries in the table are known. -/
theorem short_below_of_entries {path : String} (hfind : fs.find path = .ok (root, .directory))
    {entry : Entry}
    (hshort : ∀ item ∈ fs.entries, item.2 = entry →
      (Path.below path (item.1.drop root.length)).utf8ByteSize ≤ maxPathLength)
    (h : fs.get? (root ++ names) = some entry) :
    (Path.below path names).utf8ByteSize ≤ maxPathLength := by
  by_cases hnames : names = []
  · subst hnames
    exact Nat.not_lt.mp (lookup_eq_ok_iff.mp (find_eq_ok_iff.mp hfind)).1.2.2
  · rw [get?, if_neg (by simp [hnames])] at h
    have hitem := hshort _ (mem_of_entryAt h) rfl
    rwa [List.drop_left] at hitem

/-- A file below a directory can be read through the path of the directory and the names to it. -/
theorem read_below (htree : IsTree fs) {path : String}
    (hfind : fs.find path = .ok (root, .directory)) (hnames : ∀ name ∈ names, IsName name)
    (hlong : (Path.below path names).utf8ByteSize ≤ maxPathLength) {content : Bytes}
    (h : fs.get? (root ++ names) = some (.file content)) :
    fs.read (Path.below path names) = .ok content := by
  obtain ⟨⟨hnul, hpath, -⟩, hreach⟩ := lookup_eq_ok_iff.mp (find_eq_ok_iff.mp hfind)
  have hroot := get?_of_find hfind
  have hne : names ≠ [] := by
    rintro rfl
    rw [List.append_nil, hroot] at h
    cases h
  have hto : fs.lookup false (Path.below path names) =
      .ok (.existing (root ++ names) (.file content)) := by
    refine lookup_eq_ok_iff.mpr ⟨⟨?_, ?_, Nat.not_lt.mpr hlong⟩, ?_⟩
    · cases hfound : (Path.below path names).toList.contains '\x00' with
      | false => rfl
      | true =>
        have hmem := Path.mem_below (fun name hname => (hnames name hname).no_nul) (by decide)
          (List.contains_iff_mem.mp hfound)
        rw [List.contains_iff_mem.mpr hmem] at hnul
        cases hnul
    · intro hempty
      have hchars := Path.toList_below hnames hne path
      rw [hempty] at hchars
      simp at hchars
    · have hslash : closesWithSlash (Path.below path names) = false := by
        exact beq_eq_false_iff_ne.mpr (Path.getLast?_below_ne hnames hne path)
      rw [hslash, Path.isAbsolute_below hnames hne hpath, Path.parts_below hnames]
      exact hreach.append hne fun links =>
        reaches_below htree hnames (isDirectoryAt_iff.mpr hroot) h (file_ne_link content)
  rw [read, find_eq_ok_iff.mpr hto]

/-! ### The walk -/

/-- Where every directory can be opened, a walk gives the files that are there. -/
theorem exists_walk_eq (htree : IsTree fs) (hkeyed : IsKeyed fs) {path : String}
    (hfind : fs.find path = .ok (root, .directory)) (hinput : Path.isStandardInput path = false)
    (hshort : ∀ names, fs.get? (root ++ names) = some .directory →
      (Path.below path names).utf8ByteSize ≤ maxPathLength) :
    ∃ files : List (List String), files.Pairwise (· < ·) ∧
      (∀ names, names ∈ files ↔ ∃ content, fs.get? (root ++ names) = some (.file content)) ∧
      fs.walk path = .ok (files.map (Path.below path)) := by
  have hwalked := walked_walk hkeyed hinput hfind
  generalize hresult : fs.walk path = result at hwalked
  cases hwalked with
  | files hsorted hfiles _ =>
    refine ⟨_, hsorted, fun names => ?_, rfl⟩
    simp only [hfiles, htree.leads_iff]
  | refused hdirectory hlong _ =>
    exact absurd (hshort _ hdirectory.get?) (Nat.not_le.mpr hlong)

theorem walk_eq (htree : IsTree fs) (hkeyed : IsKeyed fs) {path : String}
    (hfind : fs.find path = .ok (root, .directory)) (hinput : Path.isStandardInput path = false)
    (hshort : ∀ names, fs.get? (root ++ names) = some .directory →
      (Path.below path names).utf8ByteSize ≤ maxPathLength)
    {files : List (List String)} (hsorted : files.Pairwise (· < ·))
    (hfiles : ∀ names, names ∈ files ↔ ∃ content, fs.get? (root ++ names) = some (.file content)) :
    fs.walk path = .ok (files.map (Path.below path)) := by
  obtain ⟨found, hfound, hmem, hwalk⟩ := exists_walk_eq htree hkeyed hfind hinput hshort
  have hsame : found = files := hfound.eq_of_mem_iff hsorted fun names => by rw [hmem, hfiles]
  rw [hwalk, hsame]

end ClassReport.FileSystem
