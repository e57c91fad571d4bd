import ClassReport.ClassFile.Parser
import ClassReport.ClassRecord.OfClassFile
import ClassReport.Failure
import ClassReport.FileSystem.Access
import ClassReport.FileSystem.Walk
import ClassReport.Log

/-!
# Discovery

Which classes an input holds. An input is a directory, whose class files are looked for at any depth,
a class file, or an archive; anything else holds none and is only warned of. First the class files are
gathered, then each is read; one that cannot be read as a class is left out and does not disturb
the others. Descriptors of modules and packages are never gathered.
-/

namespace ClassReport

/-- A class file that was found, and where. -/
structure ClassSource where
  origin : String
  bytes : Bytes
  deriving DecidableEq, Repr

namespace ClassSource

/-- The class files that a walk from `path` meets. -/
def classPaths (files : FileSystem) (path : String) : Except Failure (List String) :=
  match files.walk path with
  | .ok found => .ok (found.filter Path.isClassFile)
  | .error e => .error (.walk path e)

def ofPath (files : FileSystem) (path : String) : Except Failure ClassSource :=
  match files.read path with
  | .ok bytes => .ok ⟨path, bytes⟩
  | .error e => .error (.readClass path e)

def ofDirectory (files : FileSystem) (path : String) : Except Failure (List ClassSource) := do
  let found ← classPaths files path
  (found.filter fun p => !Path.isDescriptorClass p).mapM (ofPath files)

/-- The class files of a directory that are looked at before the first that cannot be read. Nothing
else is looked at piece by piece. -/
def beforeFailure (files : FileSystem) (path : String) : List ClassSource :=
  if files.isDirectory path then
    match classPaths files path with
    | .ok found =>
      let reads := (found.filter fun p => !Path.isDescriptorClass p).map (ofPath files)
      (reads.takeWhile Except.isOk).filterMap Except.toOption
    | .error _ => []
  else []

/-- The class files among the entries of an archive, the first entry having that index. Every entry
is opened; only class files are read. -/
def ofHeaders (archive : String) (data : FileData) (index : Nat) :
    List Archive.Header → Except Failure (List ClassSource)
  | [] => .ok []
  | header :: rest =>
    match Archive.openEntry data header with
    | .error e => .error (.openEntry index archive e)
    | .ok entry =>
      if Archive.isClassEntry header.name then
        match entry.read with
        | .error e => .error (.readEntry header.name archive e)
        | .ok bytes => (ofHeaders archive data (index + 1) rest).map (⟨header.name, bytes⟩ :: ·)
      else ofHeaders archive data (index + 1) rest

def archiveContent (files : FileSystem) (path : String) : Except Failure Bytes :=
  match files.read path with
  | .ok content => .ok content
  | .error .isDirectory => .error (.mapArchive path .noDevice)
  | .error e => .error (.openArchive path e)

/-- The class files in an archive; nothing if the file is no archive. -/
def ofArchive? (files : FileSystem) (path : String) : Except Failure (Option (List ClassSource)) :=
  match archiveContent files path with
  | .error e => .error e
  | .ok content =>
    let data := content.toArray
    match Archive.headers? data with
    | none => .ok none
    | some headers => (ofHeaders path data 0 headers).map some

/-- The class files that an input holds; nothing if it is neither class file nor archive. -/
def ofInput? (files : FileSystem) (path : String) : Except Failure (Option (List ClassSource)) :=
  if files.isDirectory path then (ofDirectory files path).map some
  else if Path.isClassFile path then
    if Path.isDescriptorClass path then .ok (some [])
    else (ofPath files path).map fun source => some [source]
  else ofArchive? files path

def record? (source : ClassSource) : Option ClassRecord :=
  match ClassFile.parse source.bytes with
  | .ok file => some file.toRecord
  | .error _ => none

/-- The log line for a class file that cannot be read. -/
def complaint? (source : ClassSource) : Option LogLine :=
  match ClassFile.parse source.bytes with
  | .ok _ => none
  | .error e =>
    some ⟨.debug, "Skipping unreadable class " ++ source.origin ++ ": " ++ e.message⟩

end ClassSource

/-- What was found out about an input: its classes or a failure, and what was logged on the way. -/
structure Discovery where
  result : Except Failure (List ClassRecord)
  log : Log

/-- A way to find out which classes an input holds. -/
abbrev Introspector := FileSystem → String → Discovery

/-- Looks into class files, archives and directories. -/
def discover : Introspector := fun files path =>
  match ClassSource.ofInput? files path with
  | .error e => ⟨.error e, (ClassSource.beforeFailure files path).filterMap ClassSource.complaint?⟩
  | .ok none => ⟨.ok [], [⟨.warn, "Not a class file or archive, skipping: " ++ path⟩]⟩
  | .ok (some sources) =>
    ⟨.ok (sources.filterMap ClassSource.record?), sources.filterMap ClassSource.complaint?⟩

end ClassReport
