import ClassReport.Proofs.PackedClasses

/-!
# Class files that cannot be read

What is no class in spite of its name, a descriptor and any other file disturb no class: the report of an
input is that of the files which count, in their order, whatever stands between them
(`discover_isolated`). Only a file that the system does not give makes looking into an input fail.
-/

namespace ClassReport

/-- The shapes of an input that may hold classes. -/
inductive InputShape where
  | classFile
  | archive
  | directory
  deriving DecidableEq, Repr

/-- Whether a file in an input of that shape is looked at as a class. -/
def InputShape.selects : InputShape → ClassSource → Bool
  | .classFile, source | .directory, source => source.isSelected
  | .archive, source => source.isEntry

/-- The files of an input in the order in which they are met, with all of their bytes. -/
inductive HoldsFiles (fs : FileSystem) (path : String) : InputShape → List ClassSource → Prop
  | classFile {location : Location} {bytes : Bytes} (hfind : fs.find path = .ok (location, .file bytes)) :
      HoldsFiles fs path .classFile [⟨path, bytes⟩]
  | archive {content : Bytes} {headers : List Archive.Header} {sources : List ClassSource}
      (hread : fs.read path = .ok content) (hheaders : Archive.headers? content.toArray = some headers)
      (hunpacks : ClassSource.Unpacks content.toArray headers sources) :
      HoldsFiles fs path .archive sources
  | directory {root : Location} {files : List PackedFile}
      (hfind : fs.find path = .ok (root, .directory))
      (hsorted : files.Pairwise fun a b => a.names.map utf8Bytes < b.names.map utf8Bytes)
      (hfiles : ∀ names bytes,
        fs.get? (root ++ names) = some (.file bytes) ↔ ⟨names, bytes⟩ ∈ files) :
      HoldsFiles fs path .directory (files.map (ClassSource.below path))

/-- A directory that the system can be asked about all the way down: it takes no longer paths. -/
structure Walkable (fs : FileSystem) (path : String) (root : Location) : Prop where
  tree : fs.IsTree
  keyed : fs.IsKeyed
  named : ∀ item ∈ fs.entries, ∀ name ∈ item.1, IsName name
  directory : fs.find path = .ok (root, .directory)
  not_input : Path.isStandardInput path = false
  -- A directory is opened, and a class file read, under its whole path; other files are only met.
  short_directories : ∀ names, fs.get? (root ++ names) = some .directory →
    (Path.below path names).utf8ByteSize ≤ FileSystem.maxPathLength
  short_classes : ∀ file : PackedFile, fs.get? (root ++ file.names) = some (.file file.bytes) →
    (ClassSource.below path file).isSelected = true →
    (Path.below path file.names).utf8ByteSize ≤ FileSystem.maxPathLength

/-- An input of that shape, all of which can be had from the system. -/
inductive ReadableInput (fs : FileSystem) (path : String) : InputShape → Prop
  | classFile {location : Location} {bytes : Bytes} (hclass : Path.isClassFile path = true)
      (hfind : fs.find path = .ok (location, .file bytes)) : ReadableInput fs path .classFile
  | archive {content : Bytes} {headers : List Archive.Header} (hclass : Path.isClassFile path = false)
      (hread : fs.read path = .ok content) (hheaders : Archive.headers? content.toArray = some headers)
      (hentries : ∀ header ∈ headers, ∃ entry bytes,
        Archive.openEntry content.toArray header = .ok entry ∧ entry.read = .ok bytes) :
      ReadableInput fs path .archive
  | directory {root : Location} (hwalkable : Walkable fs path root) : ReadableInput fs path .directory

variable {fs : FileSystem} {path : String} {shape : InputShape} {sources : List ClassSource}

/-! ### Every input holds files -/

theorem ClassSource.exists_unpacks {data : FileData} {headers : List Archive.Header}
    (h : ∀ header ∈ headers, ∃ entry bytes,
      Archive.openEntry data header = .ok entry ∧ entry.read = .ok bytes) :
    ∃ sources, ClassSource.Unpacks data headers sources := by
  induction headers with
  | nil => exact ⟨[], .nil⟩
  | cons header headers ih =>
    obtain ⟨entry, bytes, hopen, hread⟩ := h header List.mem_cons_self
    obtain ⟨sources, hrest⟩ := ih fun next hnext => h next (List.mem_cons_of_mem _ hnext)
    exact ⟨⟨header.name, bytes⟩ :: sources, .cons ⟨rfl, entry, hopen, hread⟩ hrest⟩

/-- The file at the end of the names, if one is there. -/
def fileBelow? (fs : FileSystem) (root : Location) (names : List String) : Option PackedFile :=
  match fs.get? (root ++ names) with
  | some (.file bytes) => some ⟨names, bytes⟩
  | _ => none

theorem fileBelow?_eq_some_iff {root : Location} {names : List String} {file : PackedFile} :
    fileBelow? fs root names = some file ↔
      file.names = names ∧ fs.get? (root ++ names) = some (.file file.bytes) := by
  rw [fileBelow?]
  constructor
  · intro h
    split at h
    · rename_i bytes hget
      cases h
      exact ⟨rfl, hget⟩
    · cases h
  · rintro ⟨rfl, hget⟩
    rw [hget]

namespace Walkable

variable {root : Location}

theorem exists_files (h : Walkable fs path root) : ∃ files : List PackedFile,
    (files.Pairwise fun a b => a.names.map utf8Bytes < b.names.map utf8Bytes) ∧
      ∀ names bytes, fs.get? (root ++ names) = some (.file bytes) ↔ ⟨names, bytes⟩ ∈ files := by
  obtain ⟨found, hsorted, hmem, -⟩ :=
    FileSystem.exists_walk_eq h.tree h.keyed h.directory h.not_input h.short_directories
  refine ⟨found.filterMap (fileBelow? fs root), ?_, ?_⟩
  · refine List.pairwise_filterMap.mpr (hsorted.imp ?_)
    intro names others hlt file hfile next hnext
    obtain ⟨rfl, -⟩ := fileBelow?_eq_some_iff.mp hfile
    obtain ⟨rfl, -⟩ := fileBelow?_eq_some_iff.mp hnext
    exact Utf8Order.map_utf8_lt_iff.mpr hlt
  · intro names bytes
    rw [List.mem_filterMap]
    constructor
    · intro hget
      exact ⟨names, (hmem names).mpr ⟨bytes, hget⟩, fileBelow?_eq_some_iff.mpr ⟨rfl, hget⟩⟩
    · rintro ⟨names', -, hfile⟩
      obtain ⟨rfl, hget⟩ := fileBelow?_eq_some_iff.mp hfile
      exact hget

end Walkable

theorem exists_holdsFiles (h : ReadableInput fs path shape) :
    ∃ sources, HoldsFiles fs path shape sources := by
  cases h with
  | classFile hclass hfind => exact ⟨_, .classFile hfind⟩
  | archive hclass hread hheaders hentries =>
    obtain ⟨sources, hunpacks⟩ := ClassSource.exists_unpacks hentries
    exact ⟨sources, .archive hread hheaders hunpacks⟩
  | directory hwalkable =>
    obtain ⟨files, hsorted, hfiles⟩ := hwalkable.exists_files
    exact ⟨_, .directory hwalkable.directory hsorted hfiles⟩

/-! ### What an input gives -/

theorem ofInput?_classFile {location : Location} {bytes : Bytes}
    (hclass : Path.isClassFile path = true) (hfind : fs.find path = .ok (location, .file bytes)) :
    ClassSource.ofInput? fs path =
      .ok (some ([(⟨path, bytes⟩ : ClassSource)].filter ClassSource.isSelected)) := by
  have hread : fs.read path = .ok bytes := by rw [FileSystem.read, hfind]
  rw [ClassSource.ofInput?, if_neg (ClassSource.not_isDirectory_of_read hread), hclass, if_pos rfl,
    ClassSource.ofPath, hread]
  cases hdescriptor : Path.isDescriptorClass path with
  | true =>
    rw [if_pos rfl, List.filter_cons_of_neg (by simp [ClassSource.isSelected, hdescriptor])]
    rfl
  | false =>
    rw [if_neg (by decide), List.filter_cons_of_pos (by simp [ClassSource.isSelected, hclass, hdescriptor])]
    rfl

theorem ofInput?_eq (h : ReadableInput fs path shape) (hfiles : HoldsFiles fs path shape sources) :
    ClassSource.ofInput? fs path = .ok (some (sources.filter shape.selects)) := by
  cases hfiles with
  | classFile hfind =>
    cases h with
    | classFile hclass _ => exact ofInput?_classFile hclass hfind
  | archive hread hheaders hunpacks =>
    cases h with
    | archive hclass _ _ _ => exact ClassSource.ofInput?_archive hclass hread hheaders hunpacks
  | @directory root files hfind hsorted hfiles =>
    cases h with
    | @directory root' hwalkable =>
      have hroot : root' = root := by
        have hsame := hwalkable.directory.symm.trans hfind
        cases hsame
        rfl
      subst hroot
      have hread : ∀ file ∈ files, (ClassSource.below path file).isSelected = true →
          fs.read (Path.below path file.names) = .ok file.bytes := by
        intro file hfile hselected
        have hget := (hfiles file.names file.bytes).mpr hfile
        exact FileSystem.read_below hwalkable.tree hfind (FileSystem.isName_of_get? hwalkable.named hget)
          (hwalkable.short_classes file hget hselected) hget
      rw [ClassSource.ofInput?_directory hfind, ClassSource.ofDirectory_eq hwalkable.tree
        hwalkable.keyed hfind hwalkable.not_input hwalkable.short_directories
        (hsorted.imp Utf8Order.map_utf8_lt_iff.mp) hfiles hread]
      rfl

/-! ### Files that count -/

/-- The files that are looked at as classes and can be read as such. -/
def accepted (shape : InputShape) (sources : List ClassSource) : List ClassSource :=
  sources.filter fun source => shape.selects source && source.record?.isSome

def recordOf? (bytes : Bytes) : Option ClassRecord := ClassSource.record? ⟨"", bytes⟩

theorem filterMap_selects (shape : InputShape) (sources : List ClassSource) :
    (sources.filter shape.selects).filterMap ClassSource.record? =
      ((accepted shape sources).map ClassSource.bytes).filterMap recordOf? := by
  rw [List.filterMap_map]
  show _ = (accepted shape sources).filterMap ClassSource.record?
  rw [accepted, List.filterMap_filter, List.filterMap_filter]
  refine List.filterMap_congr fun source _ => ?_
  cases hrecord : source.record? with
  | none => rw [ite_self, ite_self]
  | some record => rw [Option.isSome_some, Bool.and_true]

/-- An input gives a record for each of its files that is looked at as a class and can be read as such, in
their order. What else is in an input makes no difference: another input with the same class files of that
kind gives the same. -/
theorem discover_isolated (h : ReadableInput fs path shape) :
    (∃ sources, HoldsFiles fs path shape sources) ∧
      ∀ sources, HoldsFiles fs path shape sources →
        (discover fs path).result =
          .ok ((sources.filter shape.selects).filterMap ClassSource.record?) ∧
        ∀ (other : FileSystem) (path' : String) (shape' : InputShape) (sources' : List ClassSource),
          ReadableInput other path' shape' → HoldsFiles other path' shape' sources' →
          (accepted shape' sources').map ClassSource.bytes =
            (accepted shape sources).map ClassSource.bytes →
          (discover other path').result = (discover fs path).result := by
  refine ⟨exists_holdsFiles h, fun sources hsources => ?_⟩
  have hresult := result_discover (ofInput?_eq h hsources)
  refine ⟨hresult, fun other path' shape' sources' h' hsources' hsame => ?_⟩
  rw [hresult, result_discover (ofInput?_eq h' hsources'), filterMap_selects, filterMap_selects, hsame]

/-! ### Directories given by their entries -/

theorem get?_eq_file_iff (hkeyed : fs.IsKeyed) {location : Location} (hne : location ≠ [])
    {bytes : Bytes} :
    fs.get? location = some (.file bytes) ↔ (location, .file bytes) ∈ fs.entries := by
  rw [FileSystem.get?, if_neg hne]
  exact ⟨FileSystem.mem_of_entryAt, FileSystem.entryAt_of_mem hkeyed⟩

theorem Walkable.of_entries {root : Location} (htree : fs.IsTree) (hkeyed : fs.IsKeyed)
    (hnamed : ∀ item ∈ fs.entries, ∀ name ∈ item.1, IsName name)
    (hdirectory : fs.find path = .ok (root, .directory)) (hinput : Path.isStandardInput path = false)
    (hshort : ∀ item ∈ fs.entries,
      (Path.below path (item.1.drop root.length)).utf8ByteSize ≤ FileSystem.maxPathLength) :
    Walkable fs path root := by
  have hplace {names : List String} {entry : Entry} (hget : fs.get? (root ++ names) = some entry) :
      (Path.below path names).utf8ByteSize ≤ FileSystem.maxPathLength :=
    FileSystem.short_below_of_entries hdirectory (fun item hitem _ => hshort item hitem) hget
  exact ⟨htree, hkeyed, hnamed, hdirectory, hinput, fun names => hplace, fun file hget _ => hplace hget⟩

section Litter
open ClassFile (bareBytes)

theorem record?_of_bareBytes (origin : String) :
    ClassSource.record? ⟨origin, bareBytes⟩ = some ClassFile.bare.toRecord := by
  rw [ClassSource.record?, ClassFile.parse_bareBytes]

/-- A directory with one class file among files that do not count. -/
def littered : FileSystem :=
  ⟨[(["d"], .directory), (["d", "A.class"], .file [0]), (["d", "B.class"], .file bareBytes),
    (["d", "module-info.class"], .file bareBytes), (["d", "notes.txt"], .file [0])], []⟩

def litteredFiles : List PackedFile :=
  [⟨["A.class"], [0]⟩, ⟨["B.class"], bareBytes⟩, ⟨["module-info.class"], bareBytes⟩,
    ⟨["notes.txt"], [0]⟩]

theorem walkable_littered : Walkable littered "d" ["d"] :=
  .of_entries (by decide) (by decide) (by decide) (by rfl) (by decide) (by decide)

theorem holdsFiles_littered :
    HoldsFiles littered "d" .directory (litteredFiles.map (ClassSource.below "d")) := by
  refine .directory walkable_littered.directory (by decide +kernel) fun names bytes => ?_
  rw [get?_eq_file_iff walkable_littered.keyed (by simp)]
  simp [littered, litteredFiles]

theorem accepted_littered :
    accepted .directory (litteredFiles.map (ClassSource.below "d")) = [⟨"d/B.class", bareBytes⟩] := by
  have hbad (origin : String) : ClassSource.record? ⟨origin, [0]⟩ = none := by rfl
  have hdescriptor : ClassSource.isSelected ⟨"d/module-info.class", bareBytes⟩ = false := by decide
  have hclass : ClassSource.isSelected ⟨"d/B.class", bareBytes⟩ = true := by decide
  have hfiles : litteredFiles.map (ClassSource.below "d") =
      [⟨"d/A.class", [0]⟩, ⟨"d/B.class", bareBytes⟩, ⟨"d/module-info.class", bareBytes⟩,
        ⟨"d/notes.txt", [0]⟩] := by decide
  rw [hfiles, accepted]
  simp [InputShape.selects, hbad, hdescriptor, hclass, record?_of_bareBytes]

/-- The directory reports its one class, as if this were the input. -/
theorem discover_isolated_littered :
    (discover littered "d/B.class").result = .ok [ClassFile.bare.toRecord] ∧
      (discover littered "d").result = .ok [ClassFile.bare.toRecord] := by
  have hclass : Path.isClassFile "d/B.class" = true := by decide
  have hselected : ClassSource.isSelected ⟨"d/B.class", bareBytes⟩ = true := by decide
  have hfind : littered.find "d/B.class" = .ok (["d", "B.class"], .file bareBytes) := by rfl
  obtain ⟨-, hlaw⟩ := discover_isolated (.classFile hclass hfind)
  obtain ⟨hresult, hsame⟩ := hlaw _ (.classFile hfind)
  have hone : (discover littered "d/B.class").result = .ok [ClassFile.bare.toRecord] := by
    rw [hresult]
    simp [InputShape.selects, hselected, record?_of_bareBytes]
  refine ⟨hone, (hsame littered "d" .directory _ (.directory walkable_littered) holdsFiles_littered
    ?_).trans hone⟩
  rw [accepted_littered, accepted]
  simp [InputShape.selects, hselected, record?_of_bareBytes]

end Litter

/-! ### Directories that are not reported -/

section Cramped
open ClassFile (bareBytes)

/-- The path of a directory, with closing slashes. -/
def slashed : Nat → String
  | 0 => "d"
  | count + 1 => slashed count ++ "/"

theorem toList_slashed (count : Nat) :
    (slashed count).toList = 'd' :: List.replicate count '/' := by
  induction count with
  | zero => rfl
  | succ count ih =>
    rw [slashed, String.toList_append, ih, List.replicate_succ']
    rfl

theorem utf8ByteSize_slashed (count : Nat) : (slashed count).utf8ByteSize = count + 1 := by
  induction count with
  | zero => rfl
  | succ count ih =>
    rw [slashed, String.utf8ByteSize_append, ih]
    rfl

theorem parts_slashed (count : Nat) : Path.parts (slashed count) = ["d"] := by
  induction count with
  | zero => rfl
  | succ count ih =>
    have hchars : (slashed (count + 1)).toList = (slashed count).toList ++ '/' :: [] := by
      rw [slashed, String.toList_append]
      rfl
    show Path.partsOf (slashed (count + 1)).toList = _
    rw [hchars, Path.partsOf_append]
    exact congrArg (· ++ []) ih

theorem isAbsolute_slashed (count : Nat) : Path.isAbsolute (slashed count) = false := by
  rw [Path.isAbsolute, toList_slashed]
  rfl

theorem isStandardInput_slashed (count : Nat) : Path.isStandardInput (slashed count) = false := by
  rw [Path.isStandardInput, Path.components, isAbsolute_slashed, parts_slashed]
  decide

theorem no_nul_slashed (count : Nat) : '\x00' ∉ (slashed count).toList := by
  rw [toList_slashed]
  simp [List.mem_replicate]

theorem find_slashed (hcurrent : fs.current = []) (hdirectory : fs.get? ["d"] = some .directory)
    {count : Nat} (h : count < FileSystem.maxPathLength) :
    fs.find (slashed count) = .ok (["d"], .directory) := by
  have hnul : (slashed count).toList.contains '\x00' = false := by
    simpa using no_nul_slashed count
  have hempty : slashed count ≠ "" := by
    intro hempty
    have hchars := toList_slashed count
    rw [hempty] at hchars
    cases hchars
  have hlong : ¬ (slashed count).utf8ByteSize > FileSystem.maxPathLength := by
    rw [utf8ByteSize_slashed]
    exact Nat.not_lt.mpr h
  refine FileSystem.find_eq_ok_iff.mpr (FileSystem.lookup_eq_ok_iff.mpr ⟨⟨hnul, hempty, hlong⟩, ?_⟩)
  rw [isAbsolute_slashed, if_neg Bool.false_ne_true, parts_slashed, hcurrent]
  have hpass : FileSystem.Passes fs false (FileSystem.closesWithSlash (slashed count)) [] "d" [] :=
    ⟨FileSystem.isDirectoryAt_iff.mpr (if_pos rfl), by decide, by decide, nofun, by decide⟩
  exact .enter hpass hdirectory nofun (.done hdirectory fun _ => rfl)

/-- A directory with a class file. -/
def cramped : FileSystem := ⟨[(["d"], .directory), (["d", "B.class"], .file bareBytes)], []⟩

theorem find_cramped {count : Nat} (h : count < FileSystem.maxPathLength) :
    cramped.find (slashed count) = .ok (["d"], .directory) :=
  find_slashed (by rfl) (by rfl) h

theorem isName_crampedFile : ∀ name ∈ ["B.class"], IsName name := by decide

theorem holdsFiles_cramped {count : Nat} (h : count < FileSystem.maxPathLength) :
    HoldsFiles cramped (slashed count) .directory
      [⟨Path.below (slashed count) ["B.class"], bareBytes⟩] := by
  have hfiles : ∀ names bytes, cramped.get? (["d"] ++ names) = some (.file bytes) ↔
      (⟨names, bytes⟩ : PackedFile) ∈ [(⟨["B.class"], bareBytes⟩ : PackedFile)] := by
    intro names bytes
    rw [get?_eq_file_iff (by decide) (by simp)]
    simp [cramped]
  exact .directory (find_cramped h) (List.pairwise_singleton _ _) hfiles

theorem read_too_long {count : Nat}
    (h : FileSystem.maxPathLength < (Path.below (slashed count) ["B.class"]).utf8ByteSize) :
    cramped.read (Path.below (slashed count) ["B.class"]) = .error .nameTooLong := by
  have hnul : (Path.below (slashed count) ["B.class"]).toList.contains '\x00' = false := by
    cases hfound : (Path.below (slashed count) ["B.class"]).toList.contains '\x00' with
    | false => rfl
    | true =>
      have hmem := Path.mem_below (fun name hname => (isName_crampedFile name hname).no_nul)
        (by decide) (List.contains_iff_mem.mp hfound)
      exact absurd hmem (no_nul_slashed count)
  have hempty : Path.below (slashed count) ["B.class"] ≠ "" := by
    intro hempty
    rw [hempty] at h
    cases h
  rw [FileSystem.read, FileSystem.find, FileSystem.lookup, hnul, if_neg Bool.false_ne_true,
    if_neg hempty, if_pos h]

theorem utf8ByteSize_below_slashed (count : Nat) (name : String) :
    (Path.below (slashed (count + 1)) [name]).utf8ByteSize = count + 2 + name.utf8ByteSize := by
  have hslash : (slashed (count + 1)).toList.getLast? = some '/' := by
    rw [slashed, String.toList_append]
    exact List.getLast?_concat
  have hjoin : Path.below (slashed (count + 1)) [name] = slashed (count + 1) ++ name := by
    show Path.join (slashed (count + 1)) name = _
    rw [Path.join, if_pos hslash]
  rw [hjoin, String.utf8ByteSize_append, utf8ByteSize_slashed]

/-- Looking into a directory ends at a class file that the system does not give. -/
theorem discover_slashed {count : Nat} (h : count < FileSystem.maxPathLength)
    (hlong : FileSystem.maxPathLength < (Path.below (slashed count) ["B.class"]).utf8ByteSize) :
    (discover cramped (slashed count)).result =
      .error (.readClass (Path.below (slashed count) ["B.class"]) .nameTooLong) := by
  have hdirectories : ∀ item ∈ cramped.entries, item.2 = .directory →
      (Path.below (slashed count) (item.1.drop 1)).utf8ByteSize ≤ FileSystem.maxPathLength := by
    refine List.forall_mem_cons.mpr ⟨fun _ => ?_, List.forall_mem_singleton.mpr nofun⟩
    exact (utf8ByteSize_slashed count).trans_le h
  have hwalk : cramped.walk (slashed count) = .ok [Path.below (slashed count) ["B.class"]] := by
    refine FileSystem.walk_eq (by decide) (by decide) (find_cramped h)
      (isStandardInput_slashed count)
      (fun names => FileSystem.short_below_of_entries (find_cramped h) hdirectories)
      (List.pairwise_singleton _ ["B.class"]) fun names => ?_
    simp only [get?_eq_file_iff (show cramped.IsKeyed by decide)
      (show ["d"] ++ names ≠ [] by simp)]
    simp [cramped]
  have hvalid : PackedFile.IsValid ⟨["B.class"], bareBytes⟩ := ⟨by decide, isName_crampedFile⟩
  have hselected := ClassSource.isSelected_below hvalid (slashed count)
  have hcounts : (PackedFile.isClass ⟨["B.class"], bareBytes⟩ &&
      !PackedFile.isNameless ⟨["B.class"], bareBytes⟩) = true := by decide
  rw [hcounts, ClassSource.isSelected, Bool.and_eq_true] at hselected
  have hclass : Path.isClassFile (Path.below (slashed count) ["B.class"]) = true := hselected.1
  have hplain : (!Path.isDescriptorClass (Path.below (slashed count) ["B.class"])) = true :=
    hselected.2
  have hread : ClassSource.ofPath cramped (Path.below (slashed count) ["B.class"]) =
      .error (.readClass (Path.below (slashed count) ["B.class"]) .nameTooLong) := by
    rw [ClassSource.ofPath, read_too_long hlong]
  have hsources : ClassSource.ofDirectory cramped (slashed count) =
      .error (.readClass (Path.below (slashed count) ["B.class"]) .nameTooLong) := by
    rw [ClassSource.ofDirectory, ClassSource.classPaths, hwalk]
    show List.mapM _ (List.filter _ (List.filter _ _)) = _
    simp only [List.filter_cons, hclass, hplain, if_true, List.filter_nil, List.mapM_cons, hread]
    rfl
  rw [discover, ClassSource.ofInput?_directory (find_cramped h), hsources]
  rfl

/-- A directory of which a walk meets nothing, for the sake of its name. -/
def dashed : FileSystem := ⟨[(["-"], .directory), (["-", "B.class"], .file bareBytes)], []⟩

theorem holdsFiles_dashed : HoldsFiles dashed "-/." .directory [⟨"-/./B.class", bareBytes⟩] := by
  have hfind : dashed.find "-/." = .ok (["-"], .directory) := by rfl
  have hfiles : ∀ names bytes, dashed.get? (["-"] ++ names) = some (.file bytes) ↔
      (⟨names, bytes⟩ : PackedFile) ∈ [(⟨["B.class"], bareBytes⟩ : PackedFile)] := by
    intro names bytes
    rw [get?_eq_file_iff (by decide) (by simp)]
    simp [dashed]
  exact .directory hfind (List.pairwise_singleton _ _) hfiles

/-- A directory with one class file, which can be read as a class, may fail to be looked into, and it may
be reported as one without any. -/
theorem exists_directories_not_reported :
    (HoldsFiles cramped (slashed 4094) .directory
        [⟨Path.below (slashed 4094) ["B.class"], bareBytes⟩] ∧
      (discover cramped (slashed 4094)).result =
        .error (.readClass (Path.below (slashed 4094) ["B.class"]) .nameTooLong)) ∧
    (HoldsFiles dashed "-/." .directory [⟨"-/./B.class", bareBytes⟩] ∧
      accepted .directory [⟨"-/./B.class", bareBytes⟩] = [⟨"-/./B.class", bareBytes⟩] ∧
      (discover dashed "-/.").result = .ok []) := by
  have hshort : 4094 < FileSystem.maxPathLength := by decide
  have hlong : FileSystem.maxPathLength <
      (Path.below (slashed 4094) ["B.class"]).utf8ByteSize := by
    rw [utf8ByteSize_below_slashed 4093 "B.class"]
    decide
  have hselected : ClassSource.isSelected ⟨"-/./B.class", bareBytes⟩ = true := by decide
  have hsources : ClassSource.ofInput? dashed "-/." = .ok (some []) := by rfl
  refine ⟨⟨holdsFiles_cramped hshort, discover_slashed hshort hlong⟩, holdsFiles_dashed, ?_, ?_⟩
  · simp [accepted, InputShape.selects, hselected, record?_of_bareBytes]
  · rw [result_discover hsources]
    rfl

end Cramped

end ClassReport
