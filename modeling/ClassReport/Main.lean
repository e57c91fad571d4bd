import ClassReport.Charset.Kana
import ClassReport.Program

/-!
# The command

Calls the program on the files of the machine. What the arguments lead to is loaded first, then the
program runs on what was loaded, and at the end the tables that it wrote are stored. Nothing is decided
here but the encoders, which know kana only.
-/

namespace ClassReport.Main

def realLocation? (path : String) : IO (Option Location) := do
  try
    let real ← IO.FS.realPath path
    pure (some (Path.parts real.toString))
  catch _ => pure none

def pathOf (location : Location) : String := "/" ++ "/".intercalate location

/-- Adds what stands at a location, which must be free of links, and the directories above it. Files
are read; of what is neither file nor directory only the full device is known. -/
def loadPlace (files : FileSystem) (location : Location) : IO FileSystem := do
  let above := files.withParents [] location
  if location = ["dev", "full"] then return above.put location .fullDevice
  let real ← IO.FS.realPath (pathOf location)
  match (← real.metadata).type with
  | .dir => pure (if location = [] then above else above.put location .directory)
  | .file =>
    let content ← IO.FS.readBinFile real
    pure (above.put location (.file content.data.toList))
  | _ => pure above

/-- Adds what a path leads to, name by name; where the last name is a link, the link and its target. -/
def loadName (files : FileSystem) (parent path name : String) : IO FileSystem := do
  match ← realLocation? (if parent.isEmpty then "." else parent), ← realLocation? path with
  | some directory, some location =>
    let loaded ← loadPlace files location
    let named := directory ++ [name]
    if name = "." || name = ".." || named = location then pure loaded
    else pure ((loaded.withParents [] named).put named (.link (pathOf location)))
  | _, _ => pure files

/-- Adds what the names of a path lead to, one after another. -/
def loadNames (files : FileSystem) (parent : String) : List String → IO FileSystem
  | [] => pure files
  | name :: rest => do
    let path := if parent.isEmpty then name else Path.join parent name
    let loaded ← loadName files parent path name
    loadNames loaded path rest

/-- Adds all that stands below a directory, down to a depth; links are noted and not followed. -/
def loadBelow (files : FileSystem) (location : Location) : Nat → IO FileSystem
  | 0 => pure files
  | depth + 1 => do
    let real ← IO.FS.realPath (pathOf location)
    let mut loaded := files
    for entry in ← real.readDir do
      let child := location ++ [entry.fileName]
      match ← realLocation? (pathOf child) with
      | some target =>
        if target = child then
          loaded ← loadPlace loaded child
          if loaded.isDirectoryAt child then loaded ← loadBelow loaded child depth
        else loaded := loaded.put child (.link (pathOf target))
      | none => pure ()
    pure loaded

/-- Adds what a path of the command line leads to, and for a directory all that is below it. -/
def loadInput (files : FileSystem) (path : String) : IO FileSystem := do
  let start := if Path.isAbsolute path then "/" else ""
  let loaded ← loadNames files start (Path.parts path)
  match loaded.find path with
  | .ok (location, .directory) => loadBelow loaded location FileSystem.maxPathLength
  | _ => pure loaded

def loadOutput (files : FileSystem) (path : String) : IO FileSystem :=
  loadNames files (if Path.isAbsolute path then "/" else "") (Path.parts path)

/-- Stores a table, if the program wrote it. -/
def storeOutput (before after : FileSystem) (path : String) : IO Unit := do
  match after.find path with
  | .ok (_, .file content) =>
    if (before.read path).toOption ≠ some content then
      IO.FS.writeBinFile path ⟨content.toArray⟩
  | _ => pure ()

/-- The files that a command line speaks of. -/
def load (current : Location) (line : CommandLine) : IO FileSystem := do
  let empty : FileSystem := ⟨[], current⟩
  let here ← loadPlace empty current
  let inputs ← line.paths.foldlM loadInput here
  (Settings.targetsOf line).foldlM (fun files target => loadOutput files target.path) inputs

/-- Puts out what a call of the program leaves behind. -/
def put (result : ProgramResult) : IO UInt32 := do
  (← IO.getStdout).write ⟨result.output.toArray⟩
  (← IO.getStderr).write ⟨result.errors.toArray⟩
  pure (UInt32.ofNat result.exitCode)

/-- A call whose tables the machine does not take: it ends as a failed run. -/
def refused (line : CommandLine) (result : ProgramResult) (reason : String) : ProgramResult :=
  let told := Program.shown (line.has .quiet) [Program.failureLine (.reported reason)]
  { result with exitCode := 1, errors := result.errors ++ told }

/-- Calls the program with the arguments behind its name. -/
def call (arguments : List String) : IO UInt32 := do
  match CommandLine.parse arguments with
  | .error _ => put (Program.call .kana ⟨[], []⟩ arguments)
  | .ok line =>
    let current ← IO.currentDir
    let files ← load (Path.parts current.toString) line
    let result := Program.call .kana files arguments
    try
      (Settings.targetsOf line).forM fun target => storeOutput files result.files target.path
      put result
    catch e => put (refused line result e.toString)

end ClassReport.Main

/-- Reports the structure of the classes that the arguments name. -/
def main (arguments : List String) : IO UInt32 := ClassReport.Main.call arguments
