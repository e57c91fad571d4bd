import ClassReport.Archive.Entry
import ClassReport.FileSystem.Walk

/-!
# Failures

Why a run ends early. A failure has a message and a chain of causes, the outermost first.
-/

namespace ClassReport

inductive Failure where
  /-- The classes of an input could not be found out. -/
  | scan (input : String) (cause : Failure)
  | walk (root : String) (cause : FileSystem.WalkError)
  | readClass (path : String) (cause : OsError)
  | openArchive (path : String) (cause : OsError)
  /-- The archive could be opened, but its content cannot be had. -/
  | mapArchive (path : String) (cause : OsError)
  | openEntry (index : Nat) (archive : String) (cause : Archive.OpenError)
  | readEntry (name archive : String) (cause : Archive.DataError)
  | openOutput (path : String) (cause : OsError)
  | writeOutput (path : String) (cause : OsError)
  | consoleFull
  /-- Another source of classes gave up, with these words. -/
  | reported (message : String)
  deriving DecidableEq, Repr

namespace Failure

/-- The message and those of the causes, the outermost first. -/
def messages : Failure → List String
  | .scan input cause => ("Failed to scan " ++ input) :: cause.messages
  | .walk root cause =>
    ["Failed to walk directory: " ++ root,
      cause.path ++ ": IO error for operation on " ++ cause.path ++ ": " ++ cause.cause.message]
  | .readClass path cause => ["Failed to read class file: " ++ path, cause.message]
  | .openArchive path cause => ["Failed to open archive: " ++ path, cause.message]
  | .mapArchive path cause => ["Failed to mmap archive: " ++ path, cause.message]
  | .openEntry index archive cause =>
    s!"Failed to read entry {index} of {archive}" :: cause.messages
  | .readEntry name archive cause =>
    ["Failed to read " ++ name ++ " from " ++ archive, cause.message]
  | .openOutput path cause => ["Failed to open output file: " ++ path, cause.message]
  | .writeOutput path cause => ["Failed to write output file: " ++ path, cause.message]
  | .consoleFull => ["sink full"]
  | .reported message => [message]

def render (failure : Failure) : String := ": ".intercalate failure.messages

end Failure

end ClassReport
