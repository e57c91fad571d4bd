import ClassReport.Console
import ClassReport.Discovery
import ClassReport.Listing
import ClassReport.Settings

/-!
# Runs

A run takes its inputs in order: it finds out the classes of an input, writes them to the tables and
then lists them on the console, line by line. The first failure ends the run; what was done before it
stays done.
The way in which classes are found out is a parameter.
-/

namespace ClassReport

/-- What a run works on. -/
structure Session where
  files : FileSystem
  started : StartedTables
  console : Console
  log : Log

/-- A step of a run: it changes the session, and may fail. -/
abbrev Run (α : Type) := ExceptT Failure (StateM Session) α

namespace Session

/-- The session before the first input. -/
def start (files : FileSystem) (limit : Option Nat) : Session where
  files := files
  started := .empty
  console := .blank limit
  log := []

end Session

namespace Run

def tell (lines : Log) : Run Unit := modify fun s => { s with log := s.log ++ lines }

def inform (message : String) : Run Unit := tell [⟨.info, message⟩]

/-- Writes a line to the console. -/
def print (line : String) : Run Unit := do
  let session ← get
  let (console, done) := session.console.write (utf8Bytes line)
  set { session with console }
  if !done then throw .consoleFull

/-- What the log calls an input. -/
def inputLabel (files : FileSystem) (input : String) : String :=
  if files.isDirectory input then "directory" else "file"

/-- The classes of an input that are reported, in their order. -/
def select (settings : Settings) (discovered : List ClassRecord) : List ClassRecord :=
  (discovered.filter fun c => settings.admits c.name).mergeSort fun a b => decide (a.name ≤ b.name)

def introspect (introspector : Introspector) (input : String) : Run (List ClassRecord) := do
  let session ← get
  let found := introspector session.files input
  tell found.log
  match found.result with
  | .ok classes => pure classes
  | .error e => throw (.scan input e)

/-- The log line of a table that was written. -/
def writtenMessage (style : TableStyle) (target : TableTarget) : String :=
  target.kind.label ++ " " ++ style.format.label ++ " generated: " ++ target.path ++
    " (encoding: " ++ style.charset.name ++ ")"

def writeTarget (settings : Settings) (input : String) (classes : List ClassRecord)
    (target : TableTarget) : Run Unit := do
  let session ← get
  match Table.write session.files session.started settings.style target.kind target.path input
      classes with
  | .error e => throw e
  | .ok written =>
    set { session with files := written.files, started := written.started }
    inform (writtenMessage settings.style target)

/-- The lines that are shown for classes. -/
def listing (settings : Settings) (classes : List ClassRecord) : List String :=
  classes.flatMap fun c => if settings.isVerbose then Listing.verboseLines c else [Listing.plain c]

def report (settings : Settings) (input : String) (classes : List ClassRecord) : Run Unit := do
  inform s!"Found {classes.length} classes:"
  settings.targets.forM (writeTarget settings input classes)
  if !settings.isQuiet then (listing settings classes).forM print

def processInput (introspector : Introspector) (settings : Settings) (input : String) : Run Unit := do
  let session ← get
  let label := inputLabel session.files input
  inform ("=== Analyzing " ++ label ++ " : " ++ input ++ " ===")
  let discovered ← introspect introspector input
  if discovered.isEmpty then inform ("No classes found in " ++ label ++ ".")
  else report settings input (select settings discovered)

def processInputs (introspector : Introspector) (settings : Settings) : Run Unit :=
  settings.inputs.forM (processInput introspector settings)

/-- The outcome of a run: whether it failed, and the session that it leaves. -/
def execute (introspector : Introspector) (settings : Settings) (session : Session) :
    Except Failure Unit × Session :=
  (processInputs introspector settings).run.run session

end Run

end ClassReport
