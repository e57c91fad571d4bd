import ClassReport.Proofs.PathLookup

/-!
# What a write does

A write that succeeds puts one file, at the location that the path leads to (`write_eq_ok_iff`). Where
paths lead is the same before and after (`target?_put_eq`), so a file is told by its location through any
sequence of writes.
-/

namespace ClassReport.FileSystem

variable {fs grown : FileSystem} {creating slash : Bool} {links : Nat} {place location : Location}
  {names : List String} {result : Place} {path : String} {content bytes : Bytes} {mode : WriteMode}

/-! ### Targets -/

/-- What a place says about the file system. -/
def Place.Stands (fs : FileSystem) : Place → Prop
  | .vacant location => fs.get? location = none ∧ fs.isDirectoryAt location.dropLast = true
  | .existing location entry => fs.get? location = some entry

theorem Reaches.stands (h : Reaches fs creating links slash place names result) :
    result.Stands fs := by
  induction h with
  | done h hslash => exact h
  | here _ _ ih => exact ih
  | up _ _ ih => exact ih
  | vacant hpass h =>
    refine ⟨h, ?_⟩
    rw [List.dropLast_concat]
    exact hpass.directory
  | enter _ _ _ _ ih => exact ih
  | link _ _ _ ih => exact ih

/-- The location of a file that is there or can be made. -/
def Place.file? : Place → Option Location
  | .vacant location => some location
  | .existing location (.file _) => some location
  | .existing _ _ => none

/-- The location of the file that a write to a path goes to. -/
def target? (fs : FileSystem) (path : String) : Option Location :=
  match fs.lookup true path with
  | .ok place => place.file?
  | .error _ => none

/-- The content of the file at a location; nothing where no file stands. -/
def contentAt (fs : FileSystem) (location : Location) : Bytes :=
  match fs.get? location with
  | some (.file content) => content
  | _ => []

theorem target?_eq_some_iff :
    fs.target? path = some location ↔
      ∃ place, fs.lookup true path = .ok place ∧ place.file? = some location := by
  rw [target?]
  cases fs.lookup true path with
  | error e => simp
  | ok place => simp

theorem Place.Stands.holds (h : result.Stands fs) (hfile : result.file? = some location) :
    Holds fs location := by
  match result, hfile with
  | .vacant _, rfl => exact Or.inl h.1
  | .existing _ (.file content), rfl => exact Or.inr ⟨content, h⟩

theorem stands_of_lookup (h : fs.lookup true path = .ok result) : result.Stands fs :=
  (lookup_eq_ok_iff.mp h).2.stands

theorem holds_of_target? (h : fs.target? path = some location) : Holds fs location := by
  obtain ⟨place, hlook, hfile⟩ := target?_eq_some_iff.mp h
  exact (stands_of_lookup hlook).holds hfile

theorem IsTree.isDirectoryAt_target (htree : IsTree fs) (h : fs.target? path = some location) :
    fs.isDirectoryAt location.dropLast = true := by
  obtain ⟨place, hlook, hfile⟩ := target?_eq_some_iff.mp h
  have hstands := stands_of_lookup hlook
  match place, hfile with
  | .vacant _, rfl => exact hstands.2
  | .existing _ (.file content), rfl => exact htree.isDirectoryAt_dropLast hstands

theorem IsTree.put_target (htree : IsTree fs) (h : fs.target? path = some location) :
    IsTree (fs.put location (.file content)) :=
  htree.put (holds_of_target? h) (htree.isDirectoryAt_target h)

theorem Place.isDirectory_of_file? (h : result.file? = some location) :
    result.isDirectory = false := by
  match result, h with
  | .vacant _, rfl => rfl
  | .existing _ (.file content), rfl => rfl

/-- Spellings of one path have one target. -/
theorem target?_eq_of_components {other : String} {first second : Location}
    (hcomponents : Path.components path = Path.components other)
    (hp : fs.target? path = some first) (ho : fs.target? other = some second) : first = second := by
  obtain ⟨place, hlook, hfile⟩ := target?_eq_some_iff.mp hp
  obtain ⟨place', hlook', hfile'⟩ := target?_eq_some_iff.mp ho
  have hplace := lookup_eq_of_components hcomponents hlook (Place.isDirectory_of_file? hfile) hlook'
    (Place.isDirectory_of_file? hfile')
  rw [← hplace, hfile, Option.some.injEq] at hfile'
  exact hfile'

/-! ### Contents -/

theorem contentAt_of_get? (h : fs.get? location = some (.file content)) :
    fs.contentAt location = content := by
  rw [contentAt, h]

/-- What is read through a path is what stands at its target. -/
theorem read_of_target? (h : fs.target? path = some location)
    (hget : fs.get? location = some (.file content)) : fs.read path = .ok content := by
  obtain ⟨place, hlook, hfile⟩ := target?_eq_some_iff.mp h
  have hstands := stands_of_lookup hlook
  have hread := lookup_reading hlook
  match place, hfile with
  | .vacant _, rfl =>
    rw [hstands.1] at hget
    cases hget
  | .existing _ (.file old), rfl =>
    have hold : fs.get? _ = some (.file old) := hstands
    rw [hold] at hget
    cases hget
    rw [read, find, hread]

/-! ### Writes -/

/-- A write puts one file, or gives nothing to a device that has no room. -/
theorem write_eq_ok_iff :
    fs.write path mode bytes = .ok grown ↔
      (∃ location, fs.target? path = some location ∧
        grown = fs.put location (.file (mode.content (fs.contentAt location) bytes))) ∨
      ((∃ location, fs.lookup true path = .ok (.existing location .fullDevice)) ∧
        bytes = [] ∧ grown = fs) := by
  have hstands {place : Place} (h : fs.lookup true path = .ok place) := stands_of_lookup h
  rw [write, target?]
  cases hlook : fs.lookup true path with
  | error e => simp
  | ok place =>
    cases place with
    | vacant location =>
      have hcontent : mode.content (fs.contentAt location) bytes = bytes := by
        rw [contentAt, (hstands hlook).1]
        cases mode with
        | replace => rfl
        | append => rfl
      simp [Place.file?, hcontent, eq_comm]
    | existing location entry =>
      cases entry with
      | file old =>
        have hold : fs.contentAt location = old := contentAt_of_get? (hstands hlook)
        simp [Place.file?, hold, eq_comm]
      | fullDevice =>
        cases bytes with
        | nil => simp [Place.file?, eq_comm]
        | cons b bytes => simp [Place.file?]
      | directory => simp [Place.file?]
      | link target => simp [Place.file?]

theorem write_of_target? (h : fs.target? path = some location) (mode : WriteMode) (bytes : Bytes) :
    fs.write path mode bytes =
      .ok (fs.put location (.file (mode.content (fs.contentAt location) bytes))) :=
  write_eq_ok_iff.mpr (Or.inl ⟨location, h, rfl⟩)

theorem Place.file?_after (h : Holds fs location) (hstands : result.Stands fs) :
    (result.after location content).file? = result.file? := by
  cases result with
  | vacant at_ =>
    rw [Place.after]
    split
    · rename_i hat
      rw [hat]
      rfl
    · rfl
  | existing at_ entry =>
    rw [Place.after]
    split
    · rename_i hat
      have hget : fs.get? at_ = some entry := hstands
      rw [hat] at hget
      rcases h with hfree | ⟨old, hold⟩
      · rw [hfree] at hget
        cases hget
      · rw [hold] at hget
        cases hget
        rfl
    · rfl

/-- Putting a file moves no target. -/
theorem target?_put (h : Holds fs location) (ht : fs.target? path = some place) :
    (fs.put location (.file content)).target? path = some place := by
  obtain ⟨found, hlook, hfile⟩ := target?_eq_some_iff.mp ht
  refine target?_eq_some_iff.mpr ⟨found.after location content, lookup_put h hlook, ?_⟩
  rw [Place.file?_after h (stands_of_lookup hlook)]
  exact hfile

theorem target?_of_existing (h : fs.lookup true path = .ok (.existing location (.file content))) :
    fs.target? path = some location :=
  target?_eq_some_iff.mpr ⟨_, h, rfl⟩

/-- A file that was put at the target of a path is what the path leads to. -/
theorem lookup_put_target (h : fs.target? path = some location) :
    (fs.put location (.file content)).lookup true path = .ok (.existing location (.file content)) := by
  obtain ⟨place, hlook, hfile⟩ := target?_eq_some_iff.mp h
  rw [lookup_put (holds_of_target? h) hlook]
  match place, hfile with
  | .vacant _, rfl => rw [Place.after, if_pos rfl]
  | .existing _ (.file old), rfl => rw [Place.after, if_pos rfl]

/-- In a tree, putting a file makes no target either. -/
theorem target?_put_eq (htree : IsTree fs) (h : Holds fs location) :
    (fs.put location (.file content)).target? path = fs.target? path := by
  cases ht : (fs.put location (.file content)).target? path with
  | none =>
    cases hbefore : fs.target? path with
    | none => rfl
    | some place =>
      rw [target?_put h hbefore] at ht
      cases ht
  | some place =>
    obtain ⟨found, hlook, hfile⟩ := target?_eq_some_iff.mp ht
    obtain ⟨before, hbefore, rfl⟩ := lookup_of_put htree h hlook
    rw [Place.file?_after h (stands_of_lookup hbefore)] at hfile
    exact (target?_eq_some_iff.mpr ⟨before, hbefore, hfile⟩).symm

end ClassReport.FileSystem
