import ClassReport.Discovery
import ClassReport.Proofs.CutClassFiles
import ClassReport.Proofs.DirectoryWalk
import ClassReport.Proofs.TextOrder
import Mathlib.Data.List.Forall2

/-!
# Classes in a directory and in an archive

The same files as a directory and as the entries of an archive. Both are looked through in the same
order and report the same classes, except for files whose whole name is `.class`, which only an
archive counts (`discover_packed`).
-/

namespace ClassReport

structure PackedFile where
  names : List String
  bytes : Bytes
  deriving DecidableEq, Repr

namespace PackedFile

def path (file : PackedFile) : String := "/".intercalate file.names

structure IsValid (file : PackedFile) : Prop where
  ne_nil : file.names ≠ []
  names : ∀ name ∈ file.names, IsName name

/-- Whether an archive takes the file for a class. -/
def isClass (file : PackedFile) : Bool := Archive.isClassEntry file.path

/-- Whether the file has no name before the ending of class files. -/
def isNameless (file : PackedFile) : Bool := file.names.getLast? == some ".class"

def record? (file : PackedFile) : Option ClassRecord := ClassSource.record? ⟨file.path, file.bytes⟩

end PackedFile

def classesOf (files : List PackedFile) : List ClassRecord :=
  (files.filter PackedFile.isClass).filterMap PackedFile.record?

/-- A directory with these files at any depth and no others, all of which can be had from the system. -/
structure Unpacked (fs : FileSystem) (path : String) (files : List PackedFile) : Prop where
  tree : fs.IsTree
  keyed : fs.IsKeyed
  not_input : Path.isStandardInput path = false
  directory : ∃ root, fs.find path = .ok (root, .directory) ∧
    (∀ names bytes, fs.get? (root ++ names) = some (.file bytes) ↔ ⟨names, bytes⟩ ∈ files) ∧
    ∀ names, fs.get? (root ++ names) = some .directory →
      (Path.below path names).utf8ByteSize ≤ FileSystem.maxPathLength
  short : ∀ file ∈ files,
    (Path.below path file.names).utf8ByteSize ≤ FileSystem.maxPathLength

/-- An archive with these files as its entries, in their order, all of which can be unpacked. -/
structure Packed (fs : FileSystem) (path : String) (files : List PackedFile) : Prop where
  not_class : Path.isClassFile path = false
  archive : ∃ content headers, fs.read path = .ok content ∧
    Archive.headers? content.toArray = some headers ∧
    List.Forall₂ (fun header file => header.name = file.path ∧
      ∃ entry, Archive.openEntry content.toArray header = .ok entry ∧ entry.read = .ok file.bytes)
      headers files

variable {fs : FileSystem} {path : String} {files : List PackedFile}

namespace ClassSource

/-! ### A directory -/

theorem mapM_map_eq_ok {α β γ ε : Type} {f : β → Except ε γ} {p : α → β} {g : α → γ} {xs : List α}
    (h : ∀ x ∈ xs, f (p x) = .ok (g x)) : (xs.map p).mapM f = .ok (xs.map g) := by
  induction xs with
  | nil => rfl
  | cons x xs ih =>
    have hrest := ih fun other hother => h other (List.mem_cons_of_mem _ hother)
    rw [List.map_cons, List.mapM_cons, h x List.mem_cons_self, hrest]
    rfl

/-- Whether the file is looked at as a class, outside of an archive. -/
def isSelected (source : ClassSource) : Bool :=
  Path.isClassFile source.origin && !Path.isDescriptorClass source.origin

def below (path : String) (file : PackedFile) : ClassSource :=
  ⟨Path.below path file.names, file.bytes⟩

/-- A directory gives its selected files, if these can be read. -/
theorem ofDirectory_eq {root : Location} (htree : fs.IsTree) (hkeyed : fs.IsKeyed)
    (hfind : fs.find path = .ok (root, .directory)) (hinput : Path.isStandardInput path = false)
    (hshort : ∀ names, fs.get? (root ++ names) = some .directory →
      (Path.below path names).utf8ByteSize ≤ FileSystem.maxPathLength)
    (hsorted : files.Pairwise fun a b => a.names < b.names)
    (hfiles : ∀ names bytes, fs.get? (root ++ names) = some (.file bytes) ↔ ⟨names, bytes⟩ ∈ files)
    (hread : ∀ file ∈ files, (below path file).isSelected = true →
      fs.read (Path.below path file.names) = .ok file.bytes) :
    ofDirectory fs path = .ok ((files.map (below path)).filter isSelected) := by
  have hwalk : fs.walk path = .ok ((files.map PackedFile.names).map (Path.below path)) := by
    refine FileSystem.walk_eq htree hkeyed hfind hinput hshort (List.pairwise_map.mpr hsorted) ?_
    intro names
    rw [List.mem_map]
    constructor
    · rintro ⟨file, hfile, rfl⟩
      exact ⟨file.bytes, (hfiles _ _).mpr hfile⟩
    · rintro ⟨bytes, hget⟩
      exact ⟨⟨names, bytes⟩, (hfiles _ _).mp hget, rfl⟩
  have hselected : (((files.map PackedFile.names).map (Path.below path)).filter
      Path.isClassFile).filter (fun p => !Path.isDescriptorClass p) =
      (files.filter fun file => (below path file).isSelected).map
        fun file => Path.below path file.names := by
    rw [List.map_map, List.filter_filter, List.filter_map]
    refine congrArg _ (List.filter_congr fun file _ => ?_)
    exact Bool.and_comm _ _
  have hpaths : ∀ file ∈ files.filter (fun file => (below path file).isSelected),
      ofPath fs (Path.below path file.names) = .ok (below path file) := by
    intro file hfile
    obtain ⟨hmem, hclass⟩ := List.mem_filter.mp hfile
    rw [ofPath, hread file hmem hclass]
    rfl
  rw [ofDirectory, classPaths, hwalk, List.filter_map]
  show List.mapM _ (List.filter _ (List.filter _ _)) = _
  rw [hselected]
  exact mapM_map_eq_ok hpaths

/-- The files that a directory takes for classes. -/
def counted (files : List PackedFile) : List PackedFile :=
  files.filter fun file => file.isClass && !file.isNameless

-- The test is on the whole path, that of an archive on the names from the directory down.
theorem isSelected_below {file : PackedFile} (h : file.IsValid) (path : String) :
    (below path file).isSelected = (file.isClass && !file.isNameless) := by
  have hsplit : file.names.dropLast ++ [file.names.getLast h.ne_nil] = file.names :=
    List.dropLast_concat_getLast h.ne_nil
  have hnames := h.names
  rw [← hsplit] at hnames
  have hclass := Path.isClassFile_below hnames path
  rw [hsplit] at hclass
  rw [isSelected, below, hclass, PackedFile.isClass, PackedFile.path, PackedFile.isNameless,
    List.getLast?_eq_some_getLast h.ne_nil]
  rfl

theorem ofDirectory_unpacked (hvalid : ∀ file ∈ files, file.IsValid)
    (hsorted : files.Pairwise fun a b => a.names < b.names) (h : Unpacked fs path files) :
    ofDirectory fs path = .ok ((counted files).map (below path)) := by
  obtain ⟨root, hfind, hfiles, hshort⟩ := h.directory
  have hread : ∀ file ∈ files, (below path file).isSelected = true →
      fs.read (Path.below path file.names) = .ok file.bytes := fun file hfile _ =>
    FileSystem.read_below h.tree hfind (hvalid file hfile).names (h.short file hfile)
      ((hfiles _ _).mpr hfile)
  have hcounted : files.filter (fun file => (below path file).isSelected) = counted files :=
    List.filter_congr fun file hfile => isSelected_below (hvalid file hfile) path
  rw [ofDirectory_eq h.tree h.keyed hfind h.not_input hshort hsorted hfiles hread, List.filter_map,
    ← hcounted]
  rfl

/-! ### An archive -/

/-- The files are the entries with these headers, all of which can be unpacked. -/
def Unpacks (data : FileData) (headers : List Archive.Header) (sources : List ClassSource) : Prop :=
  List.Forall₂ (fun header source => header.name = source.origin ∧
    ∃ entry, Archive.openEntry data header = .ok entry ∧ entry.read = .ok source.bytes)
    headers sources

def isEntry (source : ClassSource) : Bool := Archive.isClassEntry source.origin

theorem ofHeaders_eq {archive : String} {data : FileData} {headers : List Archive.Header}
    {sources : List ClassSource} (h : Unpacks data headers sources) (index : Nat) :
    ofHeaders archive data index headers = .ok (sources.filter isEntry) := by
  induction h generalizing index with
  | nil => rfl
  | @cons header source headers sources hone _ ih =>
    obtain ⟨hname, entry, hopen, hbytes⟩ := hone
    have hsame : Archive.isClassEntry header.name = source.isEntry := by rw [hname, isEntry]
    rw [ofHeaders, hopen]
    simp only [hsame]
    cases hclass : source.isEntry with
    | true =>
      simp only [if_true, hbytes]
      rw [ih, List.filter_cons_of_pos hclass, hname]
      rfl
    | false =>
      rw [if_neg (by decide), ih, List.filter_cons_of_neg (by simp [hclass])]

/-! ### Inputs -/

theorem ofInput?_directory {location : Location} (hfind : fs.find path = .ok (location, .directory)) :
    ofInput? fs path = (ofDirectory fs path).map some := by
  have hdirectory : fs.isDirectory path = true := by rw [FileSystem.isDirectory, hfind]
  rw [ofInput?, if_pos hdirectory]

theorem not_isDirectory_of_read {content : Bytes} (hread : fs.read path = .ok content) :
    ¬ fs.isDirectory path = true := by
  intro hdirectory
  rw [FileSystem.isDirectory] at hdirectory
  split at hdirectory
  · rename_i location hfind
    rw [FileSystem.read, hfind] at hread
    cases hread
  · cases hdirectory

theorem ofInput?_archive {content : Bytes} {headers : List Archive.Header}
    {sources : List ClassSource} (hclass : Path.isClassFile path = false)
    (hread : fs.read path = .ok content) (hheaders : Archive.headers? content.toArray = some headers)
    (h : Unpacks content.toArray headers sources) :
    ofInput? fs path = .ok (some (sources.filter isEntry)) := by
  rw [ofInput?, if_neg (not_isDirectory_of_read hread), hclass, if_neg (by decide), ofArchive?,
    archiveContent, hread]
  simp only [hheaders, ofHeaders_eq h]
  rfl

end ClassSource

theorem filterMap_record? {origin : PackedFile → String} (files : List PackedFile) :
    (files.map fun file => (⟨origin file, file.bytes⟩ : ClassSource)).filterMap ClassSource.record? =
      files.filterMap PackedFile.record? := by
  rw [List.filterMap_map]
  rfl

theorem result_discover {sources : List ClassSource}
    (h : ClassSource.ofInput? fs path = .ok (some sources)) :
    (discover fs path).result = .ok (sources.filterMap ClassSource.record?) := by
  rw [discover, h]

theorem discover_unpacked (hvalid : ∀ file ∈ files, file.IsValid)
    (hsorted : files.Pairwise fun a b => a.names < b.names) (h : Unpacked fs path files) :
    (discover fs path).result = .ok (classesOf (files.filter fun file => !file.isNameless)) := by
  obtain ⟨root, hfind, -⟩ := h.directory
  have hsources : ClassSource.ofInput? fs path =
      .ok (some ((ClassSource.counted files).map (ClassSource.below path))) := by
    rw [ClassSource.ofInput?_directory hfind, ClassSource.ofDirectory_unpacked hvalid hsorted h]
    rfl
  have hrecords : ((ClassSource.counted files).map (ClassSource.below path)).filterMap
      ClassSource.record? = (ClassSource.counted files).filterMap PackedFile.record? :=
    filterMap_record? _
  rw [result_discover hsources, hrecords, classesOf, List.filter_filter, ClassSource.counted]

theorem discover_archive (h : Packed fs path files) :
    (discover fs path).result = .ok (classesOf files) := by
  obtain ⟨content, headers, hread, hheaders, hall⟩ := h.archive
  have hunpacks : ClassSource.Unpacks content.toArray headers
      (files.map fun file => ⟨file.path, file.bytes⟩) := List.forall₂_map_right_iff.mpr hall
  have hsources := ClassSource.ofInput?_archive h.not_class hread hheaders hunpacks
  rw [result_discover hsources, List.filter_map, filterMap_record?, classesOf]
  rfl

/-- A directory reports the classes of its files and an archive those of its entries, in one order.
A file without a name before the ending counts in an archive only; apart from such files the reports
are the same. -/
theorem discover_packed {packing : FileSystem} {archive : String}
    (hvalid : ∀ file ∈ files, file.IsValid)
    (hsorted : files.Pairwise fun a b => a.names.map utf8Bytes < b.names.map utf8Bytes)
    (hunpacked : Unpacked fs path files) (hpacked : Packed packing archive files) :
    (discover fs path).result = .ok (classesOf (files.filter fun file => !file.isNameless)) ∧
    (discover packing archive).result = .ok (classesOf files) ∧
    ((∀ file ∈ files, file.isNameless = false) →
      (discover fs path).result = (discover packing archive).result) := by
  have hdirectory := discover_unpacked hvalid (hsorted.imp Utf8Order.map_utf8_lt_iff.mp) hunpacked
  have harchive := discover_archive hpacked
  refine ⟨hdirectory, harchive, ?_⟩
  intro hnamed
  have hall : files.filter (fun file => !file.isNameless) = files := by
    rw [List.filter_eq_self]
    intro file hfile
    rw [hnamed file hfile]
    rfl
  rw [hdirectory, harchive, hall]

/-! ### A class file without a name -/

section Shelf
open ClassFile (bareBytes)

/-- A class file without a name before the ending, and one in a package. -/
def shelved : List PackedFile := [⟨[".class"], bareBytes⟩, ⟨["p", "B.class"], bareBytes⟩]

def shelf : FileSystem :=
  ⟨[(["d"], .directory), (["d", ".class"], .file bareBytes), (["d", "p"], .directory),
    (["d", "p", "B.class"], .file bareBytes)], []⟩

/-- What stands in front of the packed bytes of an entry in an archive. -/
def entryOpening (name : Bytes) : Bytes :=
  [80, 75, 3, 4, 20, 0, 0, 0, 0, 0, 0, 0, 33, 0, 246, 148, 54, 11, 31, 0, 0, 0, 31, 0, 0, 0] ++
    [UInt8.ofNat name.length, 0, 0, 0] ++ name

def entryHeader (name : Bytes) (start : UInt8) : Bytes :=
  [80, 75, 1, 2, 20, 0, 20, 0, 0, 0, 0, 0, 0, 0, 33, 0, 246, 148, 54, 11, 31, 0, 0, 0] ++
    [31, 0, 0, 0, UInt8.ofNat name.length, 0, 0, 0, 0, 0, 0, 0, 0, 0, 0, 0, 0, 0] ++
    [start, 0, 0, 0] ++ name

def nameless : Bytes := utf8Bytes ".class"

def named : Bytes := utf8Bytes "p/B.class"

/-- The same files as an archive. -/
def box : Bytes :=
  entryOpening nameless ++ bareBytes ++ entryOpening named ++ bareBytes ++ entryHeader nameless 0 ++
    entryHeader named 67 ++
    [80, 75, 5, 6, 0, 0, 0, 0, 2, 0, 2, 0, 107, 0, 0, 0, 137, 0, 0, 0, 0, 0]

def boxed : FileSystem := ⟨[(["a.jar"], .file box)], []⟩

def headerOf (name : String) (start : Nat) : Archive.Header where
  name := name
  isEncrypted := false
  hasCipher := false
  method := 0
  crc := 0x0B3694F6
  compressedSize := 31
  size := 31
  start := start

theorem crc_bareBytes : Crc32.ofBytes bareBytes = 0x0B3694F6 := by decide +kernel

theorem headers?_box : Archive.headers? box.toArray =
    some [headerOf ".class" 0, headerOf "p/B.class" 67] := by decide +kernel

theorem read_stored {content : Bytes} {crc : UInt32} (h : Crc32.ofBytes content = crc) :
    (⟨.stored, content, crc⟩ : Archive.OpenEntry).read = .ok content := by
  show (if Crc32.ofBytes content = crc then _ else _) = _
  rw [if_pos h]
  rfl

/-- An entry of the archive can be opened and read where these numbers and bytes stand. -/
theorem unpacks (name : String) (start length : Nat)
    (hsignature : FileData.number box.toArray start 4 = some 0x04034B50)
    (hname : FileData.number box.toArray (start + 26) 2 = some length)
    (hextra : FileData.number box.toArray (start + 28) 2 = some 0)
    (hbytes : FileData.slice box.toArray (start + 30 + length + 0) 31 = bareBytes) :
    ∃ entry, Archive.openEntry box.toArray (headerOf name start) = .ok entry ∧
      entry.read = .ok bareBytes := by
  have hstart : Archive.dataStart box.toArray (headerOf name start) =
      .ok (start + 30 + length + 0) := by
    rw [Archive.dataStart]
    simp only [headerOf, hsignature, hname, hextra]
    rfl
  have hopen : Archive.openEntry box.toArray (headerOf name start) =
      .ok ⟨.stored, FileData.slice box.toArray (start + 30 + length + 0) 31, 0x0B3694F6⟩ := by
    rw [Archive.openEntry, hstart]
    rfl
  rw [hbytes] at hopen
  exact ⟨_, hopen, read_stored crc_bareBytes⟩

theorem packed_box : Packed boxed "a.jar" shelved := by
  have hread : boxed.read "a.jar" = .ok box := by rfl
  have hnameless := unpacks ".class" 0 6 (by decide +kernel) (by decide +kernel)
    (by decide +kernel) (by decide +kernel)
  have hnamed := unpacks "p/B.class" 67 9 (by decide +kernel) (by decide +kernel)
    (by decide +kernel) (by decide +kernel)
  refine ⟨by decide, box, _, hread, headers?_box, ?_⟩
  exact .cons ⟨by decide, hnameless⟩ (.cons ⟨by decide, hnamed⟩ .nil)

theorem get?_shelf (names : List String) (bytes : Bytes) :
    shelf.get? (["d"] ++ names) = some (.file bytes) ↔ ⟨names, bytes⟩ ∈ shelved := by
  rw [FileSystem.get?, if_neg (by simp)]
  simp only [shelf, shelved, FileSystem.entryAt, List.mem_cons, List.not_mem_nil,
    PackedFile.mk.injEq]
  by_cases hnil : names = []
  · simp [hnil]
  by_cases hnameless : names = [".class"]
  · simp [hnameless, @eq_comm _ bytes]
  by_cases hpackage : names = ["p"]
  · simp [hpackage]
  by_cases hnamed : names = ["p", "B.class"]
  · simp [hnamed, @eq_comm _ bytes]
  · simp [hnil, hnameless, hpackage, hnamed, @eq_comm _ _ names]

theorem unpacked_shelf : Unpacked shelf "d" shelved where
  tree := by decide
  keyed := by decide
  not_input := by decide
  directory := by
    have hfind : shelf.find "d" = .ok (["d"], .directory) := by rfl
    exact ⟨["d"], hfind, get?_shelf, fun names =>
      FileSystem.short_below_of_entries hfind (by decide)⟩
  short := by
    decide

theorem isValid_shelved : ∀ file ∈ shelved, file.IsValid := by
  refine List.forall_mem_cons.mpr ⟨⟨by decide, by decide⟩, ?_⟩
  exact List.forall_mem_cons.mpr ⟨⟨by decide, by decide⟩, nofun⟩

theorem pairwise_shelved :
    shelved.Pairwise fun a b => a.names.map utf8Bytes < b.names.map utf8Bytes := by
  decide +kernel

theorem record?_bareBytes (names : List String) :
    (⟨names, bareBytes⟩ : PackedFile).record? = some ClassFile.bare.toRecord := by
  rw [PackedFile.record?, ClassSource.record?, ClassFile.parse_bareBytes]

theorem classesOf_shelved :
    classesOf shelved = [ClassFile.bare.toRecord, ClassFile.bare.toRecord] := by
  have hclasses : shelved.filter PackedFile.isClass = shelved := by decide
  rw [classesOf, hclasses, shelved, List.filterMap_cons_some (record?_bareBytes _),
    List.filterMap_cons_some (record?_bareBytes _), List.filterMap_nil]

theorem classesOf_named :
    classesOf (shelved.filter fun file => !file.isNameless) = [ClassFile.bare.toRecord] := by
  have hclasses : (shelved.filter fun file => !file.isNameless).filter PackedFile.isClass =
      [⟨["p", "B.class"], bareBytes⟩] := by decide
  rw [classesOf, hclasses, List.filterMap_cons_some (record?_bareBytes _), List.filterMap_nil]

/-- The directory reports one class and the archive two. -/
theorem discover_packed_shelf :
    (discover shelf "d").result = .ok [ClassFile.bare.toRecord] ∧
    (discover boxed "a.jar").result = .ok [ClassFile.bare.toRecord, ClassFile.bare.toRecord] := by
  obtain ⟨hdirectory, harchive, -⟩ :=
    discover_packed isValid_shelved pairwise_shelved unpacked_shelf packed_box
  rw [classesOf_named] at hdirectory
  rw [classesOf_shelved] at harchive
  exact ⟨hdirectory, harchive⟩

/-- A directory and an archive with the same files may be reported differently. -/
theorem exists_packed_differently :
    (∀ file ∈ shelved, file.IsValid) ∧
    (shelved.Pairwise fun a b => a.names.map utf8Bytes < b.names.map utf8Bytes) ∧
    Unpacked shelf "d" shelved ∧ Packed boxed "a.jar" shelved ∧
    (discover shelf "d").result ≠ (discover boxed "a.jar").result := by
  refine ⟨isValid_shelved, pairwise_shelved, unpacked_shelf, packed_box, ?_⟩
  have hsorted := pairwise_shelved.imp Utf8Order.map_utf8_lt_iff.mp
  rw [discover_unpacked isValid_shelved hsorted unpacked_shelf, discover_archive packed_box,
    classesOf_named, classesOf_shelved]
  intro hsame
  cases hsame

end Shelf

end ClassReport
