import ClassReport.Charset.Basic
import ClassReport.Failure
import ClassReport.FileSystem.Access
import ClassReport.Table.Format
import ClassReport.Table.Rows

/-!
# Writing tables

Several inputs may go into one table. The first write to a table replaces what the file held and begins
with the header; later ones only add records. Which tables have been started is kept by kind and path,
and paths are compared by their components. A write that fails starts nothing.
-/

namespace ClassReport

structure TableStyle where
  format : TableFormat
  charset : Charset

/-- What tells one table from another. -/
abbrev TableKey := TableKind × List Path.Component

/-- The tables that have their header. -/
structure StartedTables where
  keys : List TableKey
  deriving DecidableEq, Repr

namespace StartedTables

def empty : StartedTables := ⟨[]⟩

def keyOf (kind : TableKind) (path : String) : TableKey := (kind, Path.components path)

/-- Whether a table has its header. -/
def contains (started : StartedTables) (kind : TableKind) (path : String) : Bool :=
  started.keys.contains (keyOf kind path)

def insert (started : StartedTables) (kind : TableKind) (path : String) : StartedTables :=
  ⟨keyOf kind path :: started.keys⟩

end StartedTables

namespace Table

/-- The records that a write adds: the header first, if the table has none. -/
def records (started : Bool) (kind : TableKind) (source : String) (classes : List ClassRecord) :
    List (List String) :=
  if started then rows kind source classes else kind.header :: rows kind source classes

def bytes (style : TableStyle) (started : Bool) (kind : TableKind) (source : String)
    (classes : List ClassRecord) : Bytes :=
  style.charset.encode (style.format.writeRecords (records started kind source classes))

/-- What a write gives when it succeeds. -/
structure Written where
  files : FileSystem
  started : StartedTables
  /-- The number of records, without the header. -/
  count : Nat
  deriving DecidableEq, Repr

/-- Writes the members of some classes to a table. -/
def write (files : FileSystem) (started : StartedTables) (style : TableStyle) (kind : TableKind)
    (path source : String) (classes : List ClassRecord) : Except Failure Written :=
  let goesOn := started.contains kind path
  match files.write path (if goesOn then .append else .replace)
      (bytes style goesOn kind source classes) with
  | .error (.opening e) => .error (.openOutput path e)
  | .error (.writing e) => .error (.writeOutput path e)
  | .ok grown => .ok ⟨grown, started.insert kind path, (rows kind source classes).length⟩

end Table

end ClassReport
