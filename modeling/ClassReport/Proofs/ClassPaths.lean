import ClassReport.Proofs.UnreadableClasses

/-!
# The class files of a tree

A scan lists the class files to which names lead from its root through real directories: each once, and in
the order in which the bytes of the names compare, name by name (`classPaths_listed`). What is in a directory
therefore stands where the directory stands. A directory of too long a path ends the scan, the first of them
in that same order.
-/

namespace ClassReport.ClassSource
open FileSystem (Leads)

variable {fs : FileSystem} {path : String} {root : Location} {entry : Entry}

/-- The last name of the path ends in `.class`, and something stands in front of that. -/
def IsClassPath (path : String) : Prop :=
  ∃ front, front ≠ "" ∧ Path.fileName? path = some (front ++ ".class")

/-- The class files below a root, by the names that lead to them. -/
structure IsListing (fs : FileSystem) (path : String) (root : Location)
    (found : List (List String)) : Prop where
  ordered : found.Pairwise fun a b => a.map utf8Bytes < b.map utf8Bytes
  distinct : (found.map (Path.below path)).Nodup
  complete : ∀ names, names ∈ found ↔
    (∃ content, Leads fs root names (.file content)) ∧ IsClassPath (Path.below path names)

theorem IsListing.unique {found other : List (List String)} (h : IsListing fs path root found)
    (h' : IsListing fs path root other) : found = other := by
  refine (h.ordered.imp Utf8Order.map_utf8_lt_iff.mp).eq_of_mem_iff
    (h'.ordered.imp Utf8Order.map_utf8_lt_iff.mp) fun names => ?_
  rw [h.complete, h'.complete]

/-- A directory below a root for which the system takes no path. -/
structure IsOverlong (fs : FileSystem) (path : String) (root : Location) (names : List String) :
    Prop where
  directory : Leads fs root names .directory
  long : FileSystem.maxPathLength < (Path.below path names).utf8ByteSize

theorem isClassFile_iff_isClassPath : Path.isClassFile path = true ↔ IsClassPath path := by
  rw [IsClassPath]
  cases hname : Path.fileName? path with
  | none => simp [Path.isClassFile, Path.extension?, hname]
  | some name =>
    rw [Path.isClassFile_iff hname]
    constructor
    · rintro ⟨⟨front, hfront⟩, hne⟩
      have hsplit : name = String.ofList front ++ ".class" := by
        rw [← String.toList_inj, String.toList_append, String.toList_ofList, ← hfront]
        rfl
      refine ⟨String.ofList front, ?_, by rw [hsplit]⟩
      intro hempty
      rw [hsplit, hempty] at hne
      exact hne (by decide)
    · rintro ⟨front, hne, hsplit⟩
      obtain rfl := Option.some.inj hsplit
      refine ⟨⟨front.toList, by rw [String.toList_append]; rfl⟩, fun hsame => hne ?_⟩
      have hlength := congrArg String.length hsame
      rw [String.length_append] at hlength
      exact String.length_eq_zero_iff.mp (Nat.add_eq_right.mp hlength)

/-- Different names lead from one path to different paths. -/
theorem nodup_below {found : List (List String)} (hfound : found.Nodup)
    (hnames : ∀ names ∈ found, ∀ name ∈ names, IsName name) :
    (found.map (Path.below path)).Nodup := by
  refine hfound.map_on fun names hmem others hmem' hsame => ?_
  have hparts := congrArg Path.parts hsame
  rw [Path.parts_below (hnames names hmem), Path.parts_below (hnames others hmem')] at hparts
  exact List.append_cancel_left hparts

theorem isListing_filter {found : List (List String)}
    (hnamed : ∀ item ∈ fs.entries, ∀ name ∈ item.1, IsName name) (hsorted : found.Pairwise (· < ·))
    (hfiles : ∀ names, names ∈ found ↔ ∃ content, Leads fs root names (.file content)) :
    IsListing fs path root (found.filter fun names => Path.isClassFile (Path.below path names)) where
  ordered := (hsorted.imp Utf8Order.map_utf8_lt_iff.mpr).filter _
  distinct := by
    have hdistinct : found.Nodup := by
      refine hsorted.imp ?_
      rintro names _ hlt rfl
      exact List.lt_irrefl _ hlt
    refine nodup_below (hdistinct.filter _) fun names hmem => ?_
    obtain ⟨content, hleads⟩ := (hfiles names).mp (List.mem_filter.mp hmem).1
    exact FileSystem.isName_of_get? hnamed hleads.get?
  complete names := by rw [List.mem_filter, hfiles, isClassFile_iff_isClassPath]

theorem messages_overlong (first : String) :
    (Failure.walk path ⟨first, .nameTooLong⟩).messages = ["Failed to walk directory: " ++ path,
      first ++ ": IO error for operation on " ++ first ++ ": File name too long (os error 36)"] := by
  have hcause (words : String) : words ++ ": " ++ "File name too long (os error 36)" =
      words ++ ": File name too long (os error 36)" := String.append_assoc
  exact congrArg (["Failed to walk directory: " ++ path, ·]) (hcause _)

/-- A scan from a root that is there, and not standard input, lists the class files below it; or it fails,
where directories have too long paths, with the first of these directories. -/
theorem classPaths_listed (hkeyed : fs.IsKeyed)
    (hnamed : ∀ item ∈ fs.entries, ∀ name ∈ item.1, IsName name)
    (hfind : fs.find path = .ok (root, entry)) (hinput : Path.isStandardInput path = false) :
    ((∀ names, ¬ IsOverlong fs path root names) →
      ∃ found, IsListing fs path root found ∧
        classPaths fs path = .ok (found.map (Path.below path))) ∧
    ((∃ names, IsOverlong fs path root names) →
      ∃ first e, IsOverlong fs path root first ∧
        (∀ others, IsOverlong fs path root others →
          ¬ others.map utf8Bytes < first.map utf8Bytes) ∧
        classPaths fs path = .error e ∧
        e.messages = ["Failed to walk directory: " ++ path,
          Path.below path first ++ ": IO error for operation on " ++ Path.below path first ++
            ": File name too long (os error 36)"]) := by
  have hwalked := FileSystem.walked_walk hkeyed hinput hfind
  rw [classPaths]
  generalize fs.walk path = result at hwalked
  cases hwalked with
  | @files found hsorted hfiles hopens =>
    refine ⟨fun _ => ⟨_, isListing_filter hnamed hsorted hfiles, ?_⟩, ?_⟩
    · show Except.ok ((found.map (Path.below path)).filter Path.isClassFile) = _
      rw [List.filter_map]
      rfl
    · rintro ⟨names, hdirectory, hlong⟩
      exact absurd (hopens names hdirectory) (Nat.not_le.mpr hlong)
  | @refused first hdirectory hlong hfirst =>
    refine ⟨fun hnone => absurd ⟨hdirectory, hlong⟩ (hnone first), fun _ => ?_⟩
    refine ⟨first, _, ⟨hdirectory, hlong⟩, fun others hothers hlt => ?_, rfl, messages_overlong _⟩
    exact hfirst others hothers.directory hothers.long (Utf8Order.map_utf8_lt_iff.mp hlt)

section Tangled

/-- A tree with links, a class file without a name, and a directory named like a class file. -/
def tangled : FileSystem :=
  ⟨[(["d"], .directory), (["d", "a.class"], .file []), (["d", "a"], .directory),
    (["d", "a", "up"], .link ".."), (["d", "a", "x.class"], .file [0]), (["d", ".class"], .file []),
    (["d", "b.class"], .directory), (["d", "b.class", ".h.class"], .file []),
    (["d", "c.class"], .link "a.class"), (["d", "gone.class"], .link "nowhere"), (["l"], .link "d")],
    []⟩

theorem leads_tangled {names : List String} {content : Bytes}
    (h : Leads tangled ["d"] names (.file content)) :
    names ∈ [["a.class"], ["a", "x.class"], [".class"], ["b.class", ".h.class"]] := by
  have hmem := h.mem_entries (by decide)
  simp only [tangled, List.mem_cons, Prod.mk.injEq, List.cons_append, List.nil_append,
    List.cons.injEq, reduceCtorEq, and_false, or_false, false_or, List.not_mem_nil, true_and] at hmem
  simp only [List.mem_cons, List.not_mem_nil, or_false]
  tauto

theorem isListing_tangled :
    IsListing tangled "l" ["d"] [["a", "x.class"], ["a.class"], ["b.class", ".h.class"]] where
  ordered := by decide +kernel
  distinct := by decide
  complete names := by
    constructor
    · intro h
      simp only [List.mem_cons, List.not_mem_nil, or_false] at h
      rcases h with rfl | rfl | rfl
      · exact ⟨⟨[0], rfl, rfl, rfl⟩, "x", by decide, by decide⟩
      · exact ⟨⟨[], rfl, rfl⟩, "a", by decide, by decide⟩
      · exact ⟨⟨[], rfl, rfl, rfl⟩, ".h", by decide, by decide⟩
    · rintro ⟨⟨content, hleads⟩, hclass⟩
      have hmem := leads_tangled hleads
      simp only [List.mem_cons, List.not_mem_nil, or_false] at hmem ⊢
      rcases hmem with rfl | rfl | rfl | rfl
      · exact .inr (.inl rfl)
      · exact .inl rfl
      · rw [← isClassFile_iff_isClassPath] at hclass
        exact absurd hclass (by decide)
      · exact .inr (.inr rfl)

theorem find_tangled : tangled.find "l" = .ok (["d"], .directory) := by rfl

/-- The scan enters through a link, and follows none below. -/
theorem classPaths_listed_tangled :
    classPaths tangled "l" = .ok ["l/a/x.class", "l/a.class", "l/b.class/.h.class"] := by
  obtain ⟨hlisted, -⟩ := classPaths_listed (by decide) (by decide) find_tangled (by decide)
  obtain ⟨found, hfound, hpaths⟩ := hlisted fun names hover => by
    have hshort := FileSystem.short_below_of_entries find_tangled (by decide) hover.directory.get?
    exact absurd hshort (Nat.not_le.mpr hover.long)
  rw [hpaths, hfound.unique isListing_tangled]
  rfl

end Tangled

/-! ### Trees that are not listed -/

section Unlisted
open ClassFile (bareBytes)

theorem isListing_singleton {name : String} (front : String) (hname : IsName name) (hfront : front ≠ "")
    (hsplit : name = front ++ ".class")
    (hfiles : ∀ names, (∃ content, Leads fs root names (.file content)) ↔ names = [name]) :
    IsListing fs path root [[name]] where
  ordered := List.pairwise_singleton _ _
  distinct := List.nodup_singleton _
  complete names := by
    rw [hfiles, List.mem_singleton]
    refine ⟨?_, And.left⟩
    rintro rfl
    have hfile : Path.fileName? (Path.below path ([] ++ [name])) = some name :=
      Path.fileName?_below (by simpa using hname) path
    rw [hsplit] at hfile ⊢
    exact ⟨rfl, front, hfront, hfile⟩

/-- A directory with a class file and a directory. -/
def steep : FileSystem :=
  ⟨[(["d"], .directory), (["d", "A.class"], .file []), (["d", "s"], .directory)], []⟩

theorem find_steep {count : Nat} (h : count < FileSystem.maxPathLength) :
    steep.find (slashed count) = .ok (["d"], .directory) :=
  find_slashed (by rfl) (by rfl) h

theorem leads_steep {names : List String} (h : Leads steep ["d"] names entry) :
    (names, entry) ∈ [([], .directory), (["A.class"], .file []), (["s"], .directory)] := by
  have hmem := h.mem_entries (by decide)
  simpa [steep] using hmem

theorem isListing_steep : IsListing steep path ["d"] [["A.class"]] := by
  refine isListing_singleton "A" (by decide) (by decide) (by decide) fun names => ?_
  constructor
  · rintro ⟨content, h⟩
    have hmem := leads_steep h
    simp only [List.mem_cons, Prod.mk.injEq, reduceCtorEq, and_false, false_or, List.not_mem_nil,
      or_false] at hmem
    exact hmem.1
  · rintro rfl
    exact ⟨[], rfl, rfl⟩

/-- The directory in it is not opened, once its path is too long. -/
theorem classPaths_steep {count : Nat} (h : count + 2 = FileSystem.maxPathLength) :
    classPaths steep (slashed (count + 1)) = .error (.walk (slashed (count + 1))
      ⟨Path.below (slashed (count + 1)) ["s"], .nameTooLong⟩) := by
  have hroot : (slashed (count + 1)).utf8ByteSize ≤ FileSystem.maxPathLength := by
    rw [utf8ByteSize_slashed, h]
  have hlong : FileSystem.maxPathLength <
      (Path.below (slashed (count + 1)) ["s"]).utf8ByteSize := by
    rw [utf8ByteSize_below_slashed, h]
    exact Nat.lt_add_of_pos_right (by decide)
  have hwalked : FileSystem.Walked (slashed (count + 1)) (Leads steep ["d"])
      (steep.walk (slashed (count + 1))) :=
    FileSystem.walked_walk (by decide) (isStandardInput_slashed (count + 1)) (find_steep (by omega))
  rw [classPaths]
  generalize steep.walk (slashed (count + 1)) = result at hwalked
  cases hwalked with
  | files _ _ hopens => exact absurd (hopens ["s"] ⟨rfl, rfl⟩) (Nat.not_le.mpr hlong)
  | @refused first hdirectory hfirst _ =>
    have hmem := leads_steep hdirectory
    simp only [List.mem_cons, Prod.mk.injEq, reduceCtorEq, and_false, and_true, false_or,
      List.not_mem_nil, or_false] at hmem
    rcases hmem with rfl | rfl
    · exact absurd hroot (Nat.not_le.mpr hfirst)
    · rfl

theorem isListing_dashed : IsListing dashed "-" ["-"] [["B.class"]] := by
  refine isListing_singleton "B" (by decide) (by decide) (by decide) fun names => ?_
  constructor
  · rintro ⟨content, h⟩
    have hmem := h.mem_entries (by decide)
    simp only [dashed, List.mem_cons, Prod.mk.injEq, reduceCtorEq, and_false, false_or, or_false,
      List.not_mem_nil, List.cons_append, List.nil_append, List.cons.injEq, true_and] at hmem
    exact hmem.1
  · rintro rfl
    exact ⟨bareBytes, rfl, rfl⟩

/-- A class file may not be listed, because of a directory beside it that is not opened, or for the sake of the
root's name. -/
theorem exists_classPaths_unlisted :
    (steep.find (slashed 4094) = .ok (["d"], .directory) ∧
      IsListing steep (slashed 4094) ["d"] [["A.class"]] ∧
      classPaths steep (slashed 4094) =
        .error (.walk (slashed 4094) ⟨Path.below (slashed 4094) ["s"], .nameTooLong⟩)) ∧
    (dashed.find "-" = .ok (["-"], .directory) ∧
      IsListing dashed "-" ["-"] [["B.class"]] ∧
      classPaths dashed "-" = .ok []) := by
  refine ⟨⟨find_steep (by decide), isListing_steep, classPaths_steep (by rfl)⟩, by rfl,
    isListing_dashed, ?_⟩
  rfl

end Unlisted

end ClassReport.ClassSource
