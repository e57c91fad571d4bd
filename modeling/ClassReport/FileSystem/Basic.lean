import ClassReport.Bytes

/-!
# File systems

A file system is a table from locations to what is there, with a current directory. A location is
the list of names from the root down, free of links; the root itself is always a directory. A change
of one location leaves every other as it was (`get?_put`).
-/

namespace ClassReport

/-- The names that lead from the root to a place, without links. -/
abbrev Location := List String

/-- What stands at a location. -/
inductive Entry where
  | file (content : Bytes)
  | directory
  /-- A symbolic link with the text of its target. -/
  | link (target : String)
  /-- A device that can be opened and has no room for a single byte. -/
  | fullDevice
  deriving DecidableEq, Repr

/-- A tree of files, as a table, and the directory that relative paths start from. -/
structure FileSystem where
  entries : List (Location × Entry)
  current : Location
  deriving DecidableEq, Repr

namespace FileSystem

/-- The table with `entry` at `location`: in the place of what was there, or at the end. -/
def assign (location : Location) (entry : Entry) :
    List (Location × Entry) → List (Location × Entry)
  | [] => [(location, entry)]
  | (key, old) :: rest =>
    if key = location then (location, entry) :: rest else (key, old) :: assign location entry rest

/-- The first entry of the table for a location. -/
def entryAt (location : Location) : List (Location × Entry) → Option Entry
  | [] => none
  | (key, entry) :: rest => if key = location then some entry else entryAt location rest

theorem entryAt_assign (location other : Location) (entry : Entry)
    (entries : List (Location × Entry)) :
    entryAt other (assign location entry entries) =
      if other = location then some entry else entryAt other entries := by
  induction entries with
  | nil =>
    by_cases h : location = other
    · simp [assign, entryAt, h]
    · simp [assign, entryAt, h, Ne.symm h]
  | cons first rest ih =>
    obtain ⟨key, old⟩ := first
    by_cases hk : key = location
    · subst hk
      by_cases h : key = other
      · simp [assign, entryAt, h]
      · simp [assign, entryAt, h, Ne.symm h]
    · by_cases h : key = other
      · subst h
        simp [assign, entryAt, hk]
      · simp [assign, entryAt, hk, h, ih]

def get? (fs : FileSystem) (location : Location) : Option Entry :=
  if location = [] then some .directory else entryAt location fs.entries

def put (fs : FileSystem) (location : Location) (entry : Entry) : FileSystem :=
  { fs with entries := assign location entry fs.entries }

theorem get?_put (fs : FileSystem) {location : Location} (h : location ≠ []) (entry : Entry)
    (other : Location) :
    (fs.put location entry).get? other = if other = location then some entry else fs.get? other := by
  unfold get? put
  by_cases ho : other = []
  · subst ho
    simp [Ne.symm h]
  · simp only [ho, if_false, entryAt_assign]

def isDirectoryAt (fs : FileSystem) (location : Location) : Bool :=
  fs.get? location == some .directory

/-- The file system in which all places above the end of `names`, starting at `base`, are there; a
missing one becomes a directory. -/
def withParents (fs : FileSystem) (base : Location) : List String → FileSystem
  | [] | [_] => fs
  | name :: rest =>
    let place := base ++ [name]
    let grown := match fs.get? place with
      | some _ => fs
      | none => fs.put place .directory
    grown.withParents place rest

/-- The file system with `entry` at `names` under the current directory, and the directories above
it. -/
def add (fs : FileSystem) (names : List String) (entry : Entry) : FileSystem :=
  (fs.withParents fs.current names).put (fs.current ++ names) entry

end FileSystem

end ClassReport
