import ClassReport.CommandLine
import ClassReport.FileSystem.Access
import ClassReport.Log
import ClassReport.Table.Export
import ClassReport.Text.Blank

/-!
# Settings of a run

What a run does: its inputs, the tables it writes, and how much it shows. The command line is resolved
against the file system, as only inputs that are there are taken. Format and charset are looked at, and
warned of, only if a table is written. The encoders of the charsets of East Asia are a parameter.
-/

namespace ClassReport

structure TableTarget where
  kind : TableKind
  path : String
  deriving DecidableEq, Repr

structure Settings where
  inputs : List String
  isVerbose : Bool
  isQuiet : Bool
  /-- The beginnings that names of reported classes may have; any if there are none. -/
  packages : List String
  targets : List TableTarget
  style : TableStyle

/-- Some package filter is the beginning of the name, or there are no filters. -/
def IsAdmitted (packages : List String) (name : String) : Prop :=
  packages = [] ∨ ∃ start ∈ packages, start.toList <+: name.toList

instance (packages : List String) (name : String) : Decidable (IsAdmitted packages name) :=
  inferInstanceAs (Decidable (_ ∨ _))

/-- The format of that name; an unknown one is warned of, and CSV is taken. -/
def TableFormat.resolve (name : String) : TableFormat × Log :=
  match TableFormat.ofName? name with
  | some format => (format, [])
  | none => (.csv, [⟨.warn, "Unknown format '" ++ name ++ "', using CSV"⟩])

/-- The charset with that label; an unknown one is warned of, and UTF-8 is taken. -/
def Charset.resolve (encoders : Charset.Encoders) (label : String) : Charset × Log :=
  match Charset.ofLabel? encoders label with
  | some charset => (charset, [])
  | none => (.utf8, [⟨.warn, "Invalid charset '" ++ label ++ "', using UTF-8"⟩])

/-- The style of those names, and what is warned of. -/
def TableStyle.resolve (encoders : Charset.Encoders) (format charset : String) : TableStyle × Log :=
  (⟨(TableFormat.resolve format).1, (Charset.resolve encoders charset).1⟩,
    (TableFormat.resolve format).2 ++ (Charset.resolve encoders charset).2)

/-- The style that nobody has asked for. -/
def TableStyle.standard : TableStyle := ⟨.csv, .utf8⟩

namespace Settings

def admits (settings : Settings) (className : String) : Bool :=
  settings.packages.isEmpty || settings.packages.any fun start => Segment.startsWith start className

theorem admits_eq (settings : Settings) (name : String) :
    settings.admits name = decide (IsAdmitted settings.packages name) := by
  rw [Bool.eq_iff_iff, decide_eq_true_eq, admits, IsAdmitted, Bool.or_eq_true, List.isEmpty_iff,
    List.any_eq_true]
  simp only [Segment.startsWith, List.isPrefixOf_iff_prefix]

/-- Whether a path leads to something that a run can look into. -/
def isProcessable (files : FileSystem) (path : String) : Bool :=
  files.isFile path || files.isDirectory path

/-- The option that asks for a table. -/
def targetOption : TableKind → ValueOption
  | .methods => .methodsCsv
  | .fields => .fieldsCsv
  | .constructors => .constructorsCsv

/-- The tables that a command line asks for: of each kind the first one named. -/
def targetsOf (line : CommandLine) : List TableTarget :=
  [TableKind.methods, .fields, .constructors].filterMap fun kind =>
    (line.firstValue? (targetOption kind)).map fun path => ⟨kind, path⟩

/-- The style that a command line asks for. -/
def styleOf (encoders : Charset.Encoders) (line : CommandLine) : TableStyle × Log :=
  if (targetsOf line).isEmpty then (.standard, [])
  else
    TableStyle.resolve encoders ((line.firstValue? .format).getD "csv")
      ((line.firstValue? .charset).getD "UTF-8")

def ofCommandLine (encoders : Charset.Encoders) (files : FileSystem) (line : CommandLine) : Settings where
  inputs := line.paths.filter (isProcessable files)
  isVerbose := line.has .verbose
  isQuiet := line.has .quiet
  packages := (line.values .package).map Blank.trim
  targets := targetsOf line
  style := (styleOf encoders line).1

/-- What is warned of when a command line is resolved. -/
def warnings (encoders : Charset.Encoders) (line : CommandLine) : Log := (styleOf encoders line).2

end Settings

end ClassReport
