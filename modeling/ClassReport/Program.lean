import ClassReport.Run

/-!
# The program

What a call of the program does to the files and what it puts out: the listing on standard output, the
log on standard error, and an exit code. Asking for nothing shows the help. The encoders of the charsets of
East Asia are given.
-/

namespace ClassReport

/-- What a call of the program leaves behind. -/
structure ProgramResult where
  exitCode : Nat
  output : Bytes
  errors : Bytes
  files : FileSystem

namespace Program

def helpText : String :=
  "Scan Java class files, JARs and class directories and report their structure\n\n" ++
  "Usage: class-scanner [OPTIONS] [PATH]...\n\n" ++
  "Arguments:\n" ++
  "  [PATH]...  Class files, JAR archives or class directories to scan\n\n" ++
  "Options:\n" ++
  "      --verbose...               Show detailed class information\n" ++
  "      --quiet...                 Suppress standard output and log messages\n" ++
  "      --package <PACKAGE>        Keep only classes whose name starts with this prefix (repeatable)\n" ++
  "      --methods-csv <FILE>       Write methods to this CSV/TSV file\n" ++
  "      --fields-csv <FILE>        Write fields to this CSV/TSV file\n" ++
  "      --constructors-csv <FILE>  Write constructors to this CSV/TSV file\n" ++
  "      --format <FORMAT>          Output format: csv or tsv (default: csv)\n" ++
  "      --charset <CHARSET>        Character encoding for CSV files (default: UTF-8)\n" ++
  "  -h, --help                     Print help\n"

/-- What a user is told about a command line that breaks a rule. -/
def usageText : UsageError → String
  | .unknownArgument => "error: unexpected argument\n\n"
  | .missingValue => "error: an option has no value\n\n"
  | .unexpectedValue => "error: a flag has a value\n\n"

/-- The log as it is shown. -/
def shown (isQuiet : Bool) (log : Log) : Bytes :=
  if isQuiet then [] else utf8Bytes (String.join ((log.filter LogLine.isShown).map LogLine.render))

def failureLine (failure : Failure) : LogLine :=
  ⟨.error, "Error processing files: " ++ failure.render⟩

/-- The log line of a call without any input that is there. -/
def nothingLine : LogLine := ⟨.warn, "No processable files or directories found in arguments."⟩

/-- Runs with what a command line says. -/
def runWith (encoders : Charset.Encoders) (files : FileSystem) (line : CommandLine) : ProgramResult :=
  let settings := Settings.ofCommandLine encoders files line
  let warnings := Settings.warnings encoders line
  if settings.inputs.isEmpty then ⟨0, [], shown settings.isQuiet (warnings ++ [nothingLine]), files⟩
  else
    match Run.execute discover settings (.start files none) with
    | (.ok (), session) =>
      ⟨0, session.console.written, shown settings.isQuiet (warnings ++ session.log), session.files⟩
    | (.error failure, session) =>
      ⟨1, session.console.written,
        shown settings.isQuiet (warnings ++ session.log ++ [failureLine failure]), session.files⟩

/-- A call with the arguments behind the program's name. -/
def call (encoders : Charset.Encoders) (files : FileSystem) (arguments : List String) : ProgramResult :=
  match CommandLine.parse arguments with
  | .error (.usage e) => ⟨2, [], utf8Bytes (usageText e), files⟩
  | .error .help => ⟨0, utf8Bytes helpText, [], files⟩
  | .ok line =>
    if line.paths.isEmpty then
      ⟨0, if line.has .quiet then [] else utf8Bytes (helpText ++ "\n"), [], files⟩
    else runWith encoders files line

end Program

end ClassReport
