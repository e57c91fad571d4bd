import ClassReport.FileSystem.Lookup

/-!
# Reading and writing files

What a program does with a path: ask what it leads to, read a whole file, replace the content of a
file or add to its end. Writing has two steps that can fail, and a step that fails changes nothing.
-/

namespace ClassReport.FileSystem

def isDirectory (fs : FileSystem) (path : String) : Bool :=
  match fs.find path with
  | .ok (_, .directory) => true
  | _ => false

def isFile (fs : FileSystem) (path : String) : Bool :=
  match fs.find path with
  | .ok (_, .file _) => true
  | _ => false

/-- The content of the file that a path leads to. A device gives nothing. -/
def read (fs : FileSystem) (path : String) : Except OsError Bytes :=
  match fs.find path with
  | .ok (_, .file content) => .ok content
  | .ok (_, .fullDevice) => .ok []
  | .ok (_, _) => .error .isDirectory
  | .error e => .error e

/-- What happens to the old content of a file that is written. -/
inductive WriteMode where
  /-- It is dropped. -/
  | replace
  /-- It stays in front. -/
  | append
  deriving DecidableEq, Repr

/-- The step at which writing a file failed, and why. -/
inductive WriteError where
  | opening (cause : OsError)
  | writing (cause : OsError)
  deriving DecidableEq, Repr

/-- The content of a file after `bytes` were written to it. -/
def WriteMode.content (mode : WriteMode) (old bytes : Bytes) : Bytes :=
  match mode with
  | .replace => bytes
  | .append => old ++ bytes

/-- Writes to the file that a path leads to, which is made if it is not there. -/
def write (fs : FileSystem) (path : String) (mode : WriteMode) (bytes : Bytes) :
    Except WriteError FileSystem :=
  match fs.lookup true path with
  | .error e => .error (.opening e)
  | .ok (.vacant location) => .ok (fs.put location (.file bytes))
  | .ok (.existing location (.file old)) => .ok (fs.put location (.file (mode.content old bytes)))
  | .ok (.existing _ .fullDevice) =>
    if bytes.isEmpty then .ok fs else .error (.writing .noSpace)
  | .ok (.existing _ _) => .error (.opening .isDirectory)

end ClassReport.FileSystem
