import ClassReport.FileSystem.Basic
import ClassReport.Path

/-!
# Looking up paths

A path is followed name by name from the root or the current directory. Links are followed wherever
they stand, the last name included, and at most forty of them, which also ends every circle of
links. A closing slash asks for a directory.
-/

namespace ClassReport

/-- Why the system refuses a path. -/
inductive OsError where
  | notFound
  | noDevice
  | notDirectory
  | isDirectory
  | noSpace
  | nameTooLong
  | tooManyLinks
  /-- A path with the character NUL never reaches the system. -/
  | nulInPath
  deriving DecidableEq, Repr

/-- The error as the system words it. -/
def OsError.message : OsError → String
  | .notFound => "No such file or directory (os error 2)"
  | .noDevice => "No such device (os error 19)"
  | .notDirectory => "Not a directory (os error 20)"
  | .isDirectory => "Is a directory (os error 21)"
  | .noSpace => "No space left on device (os error 28)"
  | .nameTooLong => "File name too long (os error 36)"
  | .tooManyLinks => "Too many levels of symbolic links (os error 40)"
  | .nulInPath => "file name contained an unexpected NUL byte"

namespace FileSystem

def maxLinks : Nat := 40

def maxNameLength : Nat := 255

def maxPathLength : Nat := 4095

/-- Where a path leads. -/
inductive Place where
  /-- To something that is there. -/
  | existing (location : Location) (entry : Entry)
  /-- To a name that is free, in a directory that is there. -/
  | vacant (location : Location)
  deriving DecidableEq, Repr

def closesWithSlash (path : String) : Bool := path.toList.getLast? == some '/'

/-- A way to go on: from a location, along some names, with or without a closing slash. -/
abbrev Onward := Location → List String → Bool → Except OsError Place

/-- Follows names from a location. At a link `onward` takes over, with the names of the target in front
of those that are left. A look-up for `creating` a file does not take a name with a closing slash. -/
def followNames (fs : FileSystem) (creating : Bool) (onward : Onward) (slash : Bool) :
    Location → List String → Except OsError Place
  | place, [] =>
    match fs.get? place with
    | none => .error .notFound
    | some entry =>
      if slash && entry != .directory then .error .notDirectory else .ok (.existing place entry)
  | place, name :: rest =>
    if !fs.isDirectoryAt place then .error .notDirectory
    else if name = "." then followNames fs creating onward slash place rest
    else if name = ".." then followNames fs creating onward slash place.dropLast rest
    else if creating && slash && rest.isEmpty then .error .isDirectory
    else if name.utf8ByteSize > maxNameLength then .error .nameTooLong
    else
      match fs.get? (place ++ [name]) with
      | none => if rest.isEmpty then .ok (.vacant (place ++ [name])) else .error .notFound
      | some (.link target) =>
        onward (if Path.isAbsolute target then [] else place) (Path.parts target ++ rest)
          (slash || (rest.isEmpty && closesWithSlash target))
      | some _ => followNames fs creating onward slash (place ++ [name]) rest

/-- Follows names past at most so many links. -/
def follow (fs : FileSystem) (creating : Bool) : Nat → Onward
  | 0, place, names, slash =>
    fs.followNames creating (fun _ _ _ => .error .tooManyLinks) slash place names
  | links + 1, place, names, slash =>
    fs.followNames creating (follow fs creating links) slash place names

/-- Where a path leads from the current directory. -/
def lookup (fs : FileSystem) (creating : Bool) (path : String) : Except OsError Place :=
  if path.toList.contains '\x00' then .error .nulInPath
  else if path = "" then .error .notFound
  else if path.utf8ByteSize > maxPathLength then .error .nameTooLong
  else
    fs.follow creating maxLinks (if Path.isAbsolute path then [] else fs.current)
      (Path.parts path) (closesWithSlash path)

/-- What a path leads to, where something is there. -/
def find (fs : FileSystem) (path : String) : Except OsError (Location × Entry) :=
  match fs.lookup false path with
  | .ok (.existing location entry) => .ok (location, entry)
  | .ok (.vacant _) => .error .notFound
  | .error e => .error e

end FileSystem

end ClassReport
