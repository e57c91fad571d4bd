import ClassReport.FileSystem.Lookup

/-!
# Walking a directory

A walk goes down from a place through real directories: a link below the root is neither followed nor
counted. What stands in a directory is visited in the order of the names, so that everything in a
directory comes where the directory stands. Each directory is opened under its whole path, and the
first that the system does not open ends the walk. A walk from standard input meets nothing, whatever
is there under that name.
-/

namespace ClassReport.FileSystem

/-- What ended a walk: the path that could not be opened, and why. -/
structure WalkError where
  path : String
  cause : OsError
  deriving DecidableEq, Repr

/-- The name of an entry of the table that stands in the directory at `place`. -/
def nameIn? (place : Location) (item : Location × Entry) : Option String :=
  if item.1.dropLast = place then item.1.getLast? else none

/-- The names of what stands in the directory at `place`, in order. -/
def namesIn (fs : FileSystem) (place : Location) : List String :=
  (fs.entries.filterMap (nameIn? place)).mergeSort fun a b => decide (a ≤ b)

/-- How many names lead to the entry of the table that is farthest down. -/
def depth (fs : FileSystem) : Nat :=
  fs.entries.foldr (fun item deepest => max item.1.length deepest) 0

/-- The paths of the files at `place` and below it, down so many levels; `path` leads to `place`. -/
def visit (fs : FileSystem) : Nat → String → Location → Except WalkError (List String)
  | 0, _, _ => .ok []
  | levels + 1, path, place =>
    match fs.get? place with
    | some (.file _) => .ok [path]
    | some .directory =>
      if path.utf8ByteSize > maxPathLength then .error ⟨path, .nameTooLong⟩
      else
        (fs.namesIn place).flatMapM fun name =>
          visit fs levels (Path.join path name) (place ++ [name])
    | _ => .ok []

/-- The paths of the files that a walk from `path` meets; a file as its root is met itself. -/
def walk (fs : FileSystem) (path : String) : Except WalkError (List String) :=
  if Path.isStandardInput path then .ok []
  else
    match fs.find path with
    | .error e => .error ⟨path, e⟩
    | .ok (root, _) => fs.visit (fs.depth + 1) path root

end ClassReport.FileSystem
