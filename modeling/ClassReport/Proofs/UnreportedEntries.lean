import ClassReport.Proofs.PackedClasses

/-!
# Entries that are not reported

A scan opens every entry of an archive before it looks at the entry's name, and reads those that are
reported. So an entry that is not reported is harmless as long as it can be opened, whether or not
its data can be read, and stops the whole scan if it cannot be opened (`ofArchive?_without`). The step
is `ofHeaders_cons`: an entry stops the scan, or adds what it has to report to what follows.
-/

namespace ClassReport

namespace Archive

/-- An entry as a scan meets it: its name, and what there is when it is opened and then read. -/
structure Item where
  name : String
  content : Except OpenError (Except DataError Bytes)
  deriving DecidableEq

namespace Item

def ofHeader (data : FileData) (header : Header) : Item :=
  ⟨header.name, (openEntry data header).map OpenEntry.read⟩

/-- A directory, a name that does not end like a class file, or the descriptor of a module or a
package. -/
def IsUnreported (item : Item) : Prop :=
  item.name.toList.getLast? = some '/' ∨ item.name.toList.getLast? = some '\\' ∨
    ¬ ".class".toList <:+ item.name.toList ∨ Path.isDescriptorClass item.name = true

def Opens (item : Item) : Prop := ∃ read, item.content = .ok read

/-- The entry can be opened, and read if it is reported. -/
def Passes (item : Item) : Prop :=
  ∃ read, item.content = .ok read ∧ (isClassEntry item.name = true → ∃ bytes, read = .ok bytes)

/-- How a scan fails at the entry with that index. -/
def failure? (archive : String) (index : Nat) (item : Item) : Option Failure :=
  match item.content with
  | .error e => some (.openEntry index archive e)
  | .ok (.error e) => if isClassEntry item.name then some (.readEntry item.name archive e) else none
  | .ok (.ok _) => none

/-- What the entry adds to the report. -/
def source? (item : Item) : Option ClassSource :=
  match item.content with
  | .ok (.ok bytes) => if isClassEntry item.name then some ⟨item.name, bytes⟩ else none
  | _ => none

variable {item : Item}

theorem isClassEntry_eq_false_iff : isClassEntry item.name = false ↔ item.IsUnreported := by
  have hdirectory (c : Char) (h : item.name.toList.getLast? = some c) (hc : c ≠ 's') :
      ¬ ".class".toList <:+ item.name.toList := by
    rintro ⟨front, hfront⟩
    rw [← hfront, List.getLast?_append] at h
    exact hc (Option.some.inj h).symm
  rw [isClassEntry, Bool.and_eq_false_iff, Bool.not_eq_false', ← Bool.not_eq_true,
    List.isSuffixOf_iff_suffix, IsUnreported]
  constructor
  · intro h
    exact Or.inr (Or.inr h)
  · rintro (h | h | h)
    · exact Or.inl (hdirectory '/' h (by decide))
    · exact Or.inl (hdirectory '\\' h (by decide))
    · exact h

theorem failure?_eq_none_iff {archive : String} {index : Nat} :
    item.failure? archive index = none ↔ item.Passes := by
  rw [failure?, Passes]
  rcases item.content with e | e | bytes <;> simp

theorem IsUnreported.passes_iff (h : item.IsUnreported) : item.Passes ↔ item.Opens := by
  simp [Passes, Opens, isClassEntry_eq_false_iff.mpr h]

theorem IsUnreported.source?_eq_none (h : item.IsUnreported) : item.source? = none := by
  rw [source?, isClassEntry_eq_false_iff.mpr h]
  rcases item.content with e | e | bytes <;> rfl

end Item

/-- All entries, some that are not reported, and the entries without those, each in order. -/
inductive Without : List Item → List Item → List Item → Prop
  | nil : Without [] [] []
  | keep (item : Item) {all removed left : List Item} (h : Without all removed left) :
      Without (item :: all) removed (item :: left)
  | remove {item : Item} {all removed left : List Item} (hitem : item.IsUnreported)
      (h : Without all removed left) : Without (item :: all) (item :: removed) left

variable {all removed left : List Item}

theorem Without.mem_iff (h : Without all removed left) {item : Item} :
    item ∈ all ↔ item ∈ removed ∨ item ∈ left := by
  induction h with
  | nil => simp
  | keep other _ ih => rw [List.mem_cons, List.mem_cons, ih, or_left_comm]
  | remove _ _ ih => rw [List.mem_cons, List.mem_cons, ih, or_assoc]

theorem Without.isUnreported (h : Without all removed left) : ∀ item ∈ removed, item.IsUnreported := by
  induction h with
  | nil => exact nofun
  | keep _ _ ih => exact ih
  | remove hitem _ ih => exact List.forall_mem_cons.mpr ⟨hitem, ih⟩

theorem Without.filterMap_source? (h : Without all removed left) :
    all.filterMap Item.source? = left.filterMap Item.source? := by
  induction h with
  | nil => rfl
  | keep item _ ih => rw [List.filterMap_cons, List.filterMap_cons, ih]
  | remove hitem _ ih => rw [List.filterMap_cons_none hitem.source?_eq_none, ih]

theorem Without.forall_passes_iff (h : Without all removed left) :
    (∀ item ∈ all, item.Passes) ↔ (∀ item ∈ removed, item.Opens) ∧ ∀ item ∈ left, item.Passes := by
  have hremoved : (∀ item ∈ removed, item.Passes) ↔ ∀ item ∈ removed, item.Opens :=
    forall₂_congr fun item hitem => (h.isUnreported item hitem).passes_iff
  simp only [h.mem_iff, or_imp, forall_and, hremoved]

end Archive

open Archive (Item Without)

/-- The file is an archive with these entries. -/
def HoldsItems (fs : FileSystem) (path : String) (items : List Item) : Prop :=
  ∃ content headers, fs.read path = .ok content ∧ Archive.headers? content.toArray = some headers ∧
    items = headers.map (Item.ofHeader content.toArray)

namespace ClassSource

/-- An entry stops the scan, or adds what it has to report to what follows. -/
theorem ofHeaders_cons (archive : String) (data : FileData) (index : Nat) (header : Archive.Header)
    (rest : List Archive.Header) :
    ofHeaders archive data index (header :: rest) =
      match (Item.ofHeader data header).failure? archive index with
      | some e => .error e
      | none => (ofHeaders archive data (index + 1) rest).map
          ((Item.ofHeader data header).source?.toList ++ ·) := by
  rw [ofHeaders, Item.failure?, Item.source?, Item.ofHeader]
  cases Archive.openEntry data header with
  | error e => rfl
  | ok entry =>
    simp only [Except.map]
    cases entry.read with
    | error e =>
      cases Archive.isClassEntry header.name with
      | true => rfl
      | false => cases ofHeaders archive data (index + 1) rest <;> rfl
    | ok bytes =>
      cases Archive.isClassEntry header.name with
      | true => cases ofHeaders archive data (index + 1) rest <;> rfl
      | false => cases ofHeaders archive data (index + 1) rest <;> rfl

theorem toOption_eq_some_iff {α ε : Type} {x : Except ε α} {a : α} :
    x.toOption = some a ↔ x = .ok a := by
  cases x <;> simp [Except.toOption]

theorem map_eq_ok_iff {α β ε : Type} {f : α → β} {x : Except ε α} {y : β} :
    x.map f = .ok y ↔ ∃ a, x = .ok a ∧ f a = y := by
  cases x <;> simp [Except.map]

/-- A scan succeeds where every entry lets it pass, and gives what is reported, in order. -/
theorem ofHeaders_eq_ok_iff {archive : String} {data : FileData} {headers : List Archive.Header}
    {sources : List ClassSource} (index : Nat) :
    ofHeaders archive data index headers = .ok sources ↔
      (∀ item ∈ headers.map (Item.ofHeader data), item.Passes) ∧
        (headers.map (Item.ofHeader data)).filterMap Item.source? = sources := by
  induction headers generalizing index sources with
  | nil => simp [ofHeaders]
  | cons header rest ih =>
    rw [ofHeaders_cons, List.map_cons, List.forall_mem_cons]
    cases hfailure : (Item.ofHeader data header).failure? archive index with
    | some e =>
      have hstops : ¬ (Item.ofHeader data header).Passes := by
        rw [← Item.failure?_eq_none_iff, hfailure]
        exact Option.some_ne_none e
      simp [hstops]
    | none =>
      have hpasses := Item.failure?_eq_none_iff.mp hfailure
      have hsources : (Item.ofHeader data header :: rest.map (Item.ofHeader data)).filterMap
          Item.source? = (Item.ofHeader data header).source?.toList ++
            (rest.map (Item.ofHeader data)).filterMap Item.source? := by
        rw [List.filterMap_cons]
        cases (Item.ofHeader data header).source? <;> rfl
      simp only [map_eq_ok_iff, ih, hpasses, hsources, true_and]
      constructor
      · rintro ⟨found, ⟨hrest, rfl⟩, heq⟩
        exact ⟨hrest, heq⟩
      · rintro ⟨hrest, heq⟩
        exact ⟨_, ⟨hrest, rfl⟩, heq⟩

end ClassSource

variable {fs fs' : FileSystem} {path path' : String} {items all removed left : List Item}

/-- An archive gives what its entries have to report, if none of them stops the scan. -/
theorem ofArchive?_eq_ok_iff (h : HoldsItems fs path items) {found : Option (List ClassSource)} :
    ClassSource.ofArchive? fs path = .ok found ↔
      (∀ item ∈ items, item.Passes) ∧ some (items.filterMap Item.source?) = found := by
  obtain ⟨content, headers, hread, hheaders, rfl⟩ := h
  have hscan : ClassSource.ofArchive? fs path =
      (ClassSource.ofHeaders path content.toArray 0 headers).map some := by
    rw [ClassSource.ofArchive?, ClassSource.archiveContent, hread]
    simp only [hheaders]
  rw [hscan, ClassSource.map_eq_ok_iff]
  constructor
  · rintro ⟨sources, hsources, rfl⟩
    obtain ⟨hpasses, rfl⟩ := (ClassSource.ofHeaders_eq_ok_iff 0).mp hsources
    exact ⟨hpasses, rfl⟩
  · rintro ⟨hpasses, rfl⟩
    exact ⟨_, (ClassSource.ofHeaders_eq_ok_iff 0).mpr ⟨hpasses, rfl⟩, rfl⟩

/-- Entries that are not reported leave the scan as it is if they can be opened. One that cannot be
opened fails the whole scan, which is the same only where the scan without it fails too. -/
theorem ofArchive?_without (h : HoldsItems fs path all) (h' : HoldsItems fs' path' left)
    (hremoved : Without all removed left) :
    ((∀ item ∈ removed, item.Opens) →
      (ClassSource.ofArchive? fs path).toOption = (ClassSource.ofArchive? fs' path').toOption) ∧
    ((∃ item ∈ removed, ¬ item.Opens) → (ClassSource.ofArchive? fs path).toOption = none) ∧
    ((ClassSource.ofArchive? fs path).toOption = (ClassSource.ofArchive? fs' path').toOption ↔
      (ClassSource.ofArchive? fs' path').toOption = none ∨ ∀ item ∈ removed, item.Opens) := by
  have hsame (hopen : ∀ item ∈ removed, item.Opens) :
      (ClassSource.ofArchive? fs path).toOption = (ClassSource.ofArchive? fs' path').toOption := by
    refine Option.ext fun found => ?_
    rw [ClassSource.toOption_eq_some_iff, ClassSource.toOption_eq_some_iff, ofArchive?_eq_ok_iff h,
      ofArchive?_eq_ok_iff h', hremoved.forall_passes_iff, hremoved.filterMap_source?,
      and_iff_right hopen]
  have hstops (hclosed : ∃ item ∈ removed, ¬ item.Opens) :
      (ClassSource.ofArchive? fs path).toOption = none := by
    obtain ⟨item, hitem, hclosed⟩ := hclosed
    rw [Option.eq_none_iff_forall_ne_some]
    intro found hfound
    rw [ClassSource.toOption_eq_some_iff, ofArchive?_eq_ok_iff h, hremoved.forall_passes_iff] at hfound
    exact hclosed (hfound.1.1 item hitem)
  refine ⟨hsame, hstops, ?_⟩
  by_cases hopen : ∀ item ∈ removed, item.Opens
  · exact iff_of_true (hsame hopen) (Or.inr hopen)
  · rw [hstops (by simpa using hopen), or_iff_left hopen, eq_comm]

/-! ### Notes beside a class -/

section Crate
open ClassFile (bareBytes)

def notes : Bytes := utf8Bytes "notes.txt"

def plain : Bytes := utf8Bytes "B.class"

/-- Notes and a class, the notes packed by that method. -/
def crate (method : UInt8) : Bytes :=
  entryOpening notes ++ bareBytes ++ entryOpening plain ++ bareBytes ++
    (entryHeader notes 0).set 10 method ++ entryHeader plain 70 ++
    [80, 75, 5, 6, 0, 0, 0, 0, 2, 0, 2, 0, 108, 0, 0, 0, 138, 0, 0, 0, 0, 0]

def lone : Bytes :=
  entryOpening plain ++ bareBytes ++ entryHeader plain 0 ++
    [80, 75, 5, 6, 0, 0, 0, 0, 1, 0, 1, 0, 53, 0, 0, 0, 68, 0, 0, 0, 0, 0]

def classItem : Item := ⟨"B.class", .ok (.ok bareBytes)⟩

/-- The notes as they can be read, and packed by a method that is not known. -/
def notesItem : Item := ⟨"notes.txt", .ok (.ok bareBytes)⟩

def lockedItem : Item := ⟨"notes.txt", .error .unknownMethod⟩

/-- A file system with one archive. -/
def shed (archive : Bytes) : FileSystem := ⟨[(["a.jar"], .file archive)], []⟩

theorem holdsItems_crate : HoldsItems (shed (crate 0)) "a.jar" [notesItem, classItem] :=
  ⟨crate 0, [headerOf "notes.txt" 0, headerOf "B.class" 70], rfl, by decide +kernel,
    by decide +kernel⟩

theorem holdsItems_locked : HoldsItems (shed (crate 12)) "a.jar" [lockedItem, classItem] :=
  ⟨crate 12, [{ headerOf "notes.txt" 0 with method := 12 }, headerOf "B.class" 70], rfl,
    by decide +kernel, by decide +kernel⟩

theorem holdsItems_lone : HoldsItems (shed lone) "a.jar" [classItem] :=
  ⟨lone, [headerOf "B.class" 0], rfl, by decide +kernel, by decide +kernel⟩

theorem isUnreported_notes {item : Item} (h : item.name = "notes.txt") : item.IsUnreported := by
  rw [← Item.isClassEntry_eq_false_iff, h]
  decide

theorem without_notes {item : Item} (h : item.name = "notes.txt") :
    Without [item, classItem] [item] [classItem] :=
  .remove (isUnreported_notes h) (.keep classItem .nil)

theorem ofArchive?_lone :
    ClassSource.ofArchive? (shed lone) "a.jar" = .ok (some [⟨"B.class", bareBytes⟩]) := by
  rw [ofArchive?_eq_ok_iff holdsItems_lone]
  refine ⟨List.forall_mem_singleton.mpr ⟨.ok bareBytes, rfl, fun _ => ⟨bareBytes, rfl⟩⟩, ?_⟩
  decide

/-- With notes that can be opened the class is found as it is without them, and with notes that
cannot be opened the archive fails. -/
theorem ofArchive?_without_notes :
    (ClassSource.ofArchive? (shed (crate 0)) "a.jar").toOption =
      some (some [⟨"B.class", bareBytes⟩]) ∧
    (ClassSource.ofArchive? (shed (crate 12)) "a.jar").toOption = none := by
  obtain ⟨hsame, -, -⟩ := ofArchive?_without holdsItems_crate holdsItems_lone (without_notes rfl)
  obtain ⟨-, hstops, -⟩ := ofArchive?_without holdsItems_locked holdsItems_lone (without_notes rfl)
  have hlocked : ¬ lockedItem.Opens := nofun
  refine ⟨?_, hstops ⟨lockedItem, List.mem_cons_self, hlocked⟩⟩
  rw [hsame (List.forall_mem_singleton.mpr ⟨.ok bareBytes, rfl⟩), ofArchive?_lone]
  rfl

/-- Notes that cannot be opened turn the report of a class into a failure. -/
theorem exists_unreported_failing :
    HoldsItems (shed (crate 12)) "a.jar" [lockedItem, classItem] ∧
    HoldsItems (shed lone) "a.jar" [classItem] ∧ lockedItem.IsUnreported ∧
    Without [lockedItem, classItem] [lockedItem] [classItem] ∧
    ClassSource.ofArchive? (shed (crate 12)) "a.jar" =
      .error (.openEntry 0 "a.jar" .unknownMethod) ∧
    ClassSource.ofArchive? (shed lone) "a.jar" = .ok (some [⟨"B.class", bareBytes⟩]) := by
  refine ⟨holdsItems_locked, holdsItems_lone, isUnreported_notes rfl, without_notes rfl, ?_,
    ofArchive?_lone⟩
  decide +kernel

end Crate

end ClassReport
