/-!
# Delimited text

A table as text: the cells of a record with a delimiter between them, CR and LF behind each record. A
cell is quoted only where it must be, and a quote inside it is written twice.
-/

namespace ClassReport

/-- What stands between the cells of a record. -/
inductive TableFormat where
  | csv
  | tsv
  deriving DecidableEq, Repr

namespace TableFormat

def delimiter : TableFormat → Char
  | .csv => ','
  | .tsv => '\t'

def label : TableFormat → String
  | .csv => "CSV"
  | .tsv => "TSV"

/-- The format of that name, in small or large letters. -/
def ofName? (name : String) : Option TableFormat :=
  let small := name.map Char.toLower
  if small = "csv" then some .csv
  else if small = "tsv" then some .tsv
  else none

/-- Whether a cell with this character must be quoted. -/
def isSpecial (delimiter c : Char) : Bool := c == delimiter || c == '"' || c == '\r' || c == '\n'

/-- The characters of a cell with every quote written twice. -/
def doubled (cell : List Char) : List Char := cell.flatMap fun c => if c = '"' then [c, c] else [c]

def writeCell (format : TableFormat) (cell : String) : String :=
  if cell.toList.any (isSpecial format.delimiter) then
    String.ofList ('"' :: doubled cell.toList ++ ['"'])
  else cell

def writeRecord (format : TableFormat) (cells : List String) : String :=
  (String.singleton format.delimiter).intercalate (cells.map format.writeCell) ++ "\r\n"

def writeRecords (format : TableFormat) (records : List (List String)) : String :=
  String.join (records.map format.writeRecord)

end TableFormat

end ClassReport
