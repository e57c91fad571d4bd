import ClassReport.Proofs.CharsetDecoding
import ClassReport.Proofs.FileWriting
import ClassReport.Table.Export

/-!
# What one write to a table does

The bytes of a first write are those of the header and those of a later write (`bytes_first`), in every
charset. A write that succeeds opens one file and leaves there these bytes, behind what the file held if
the table was started before (`write_eq_ok`).
-/

namespace ClassReport

namespace TableFormat

theorem writeRecords_cons (format : TableFormat) (record : List String)
    (records : List (List String)) :
    format.writeRecords (record :: records) =
      format.writeRecord record ++ format.writeRecords records := by
  rw [writeRecords, List.map_cons, String.join_cons, writeRecords]

theorem mem_doubled {c : Char} {chars : List Char} (h : c ∈ doubled chars) : c ∈ chars := by
  obtain ⟨d, hd, hc⟩ := List.mem_flatMap.mp h
  have heq : c = d := by
    split at hc
    · simpa using hc
    · simpa using hc
  rw [heq]
  exact hd

/-- A written cell has the characters of the cell and quotes. -/
theorem mem_writeCell {format : TableFormat} {cell : String} {c : Char}
    (h : c ∈ (format.writeCell cell).toList) : c ∈ cell.toList ∨ c = '"' := by
  rw [writeCell] at h
  split at h
  · rw [String.toList_ofList, List.mem_append, List.mem_cons, List.mem_singleton] at h
    rcases h with (h | h) | h
    · exact Or.inr h
    · exact Or.inl (mem_doubled h)
    · exact Or.inr h
  · exact Or.inl h

theorem mem_intercalate {separator : String} {cells : List String} {c : Char}
    (h : c ∈ (separator.intercalate cells).toList) :
    c ∈ separator.toList ∨ ∃ cell ∈ cells, c ∈ cell.toList := by
  induction cells with
  | nil => simp at h
  | cons cell cells ih =>
    cases cells with
    | nil =>
      rw [String.intercalate_singleton] at h
      exact Or.inr ⟨cell, List.mem_cons_self, h⟩
    | cons next cells =>
      rw [String.intercalate_cons_cons, String.toList_append, String.toList_append, List.mem_append,
        List.mem_append] at h
      rcases h with (h | h) | h
      · exact Or.inr ⟨cell, List.mem_cons_self, h⟩
      · exact Or.inl h
      · rcases ih h with h | ⟨other, hother, h⟩
        · exact Or.inl h
        · exact Or.inr ⟨other, List.mem_cons_of_mem _ hother, h⟩

/-- A record of plain cells is written in plain characters. -/
theorem isPlain_writeRecord (format : TableFormat) {cells : List String}
    (h : ∀ cell ∈ cells, cell.toList.all Charset.isPlain = true) :
    ∀ c ∈ (format.writeRecord cells).toList, Charset.isPlain c = true := by
  intro c hc
  rw [writeRecord, String.toList_append, List.mem_append] at hc
  rcases hc with hc | hc
  · rcases mem_intercalate hc with hc | ⟨written, hwritten, hc⟩
    · rw [String.toList_singleton, List.mem_singleton] at hc
      rw [hc]
      cases format with
      | csv => decide
      | tsv => decide
    · obtain ⟨cell, hcell, rfl⟩ := List.mem_map.mp hwritten
      rcases mem_writeCell hc with hc | hc
      · exact List.all_eq_true.mp (h cell hcell) c hc
      · rw [hc]
        decide
  · have hend : ("\r\n" : String).toList.all Charset.isPlain = true := by decide
    exact List.all_eq_true.mp hend c hc

theorem writeRecord_ne_empty (format : TableFormat) (cells : List String) :
    format.writeRecord cells ≠ "" := by
  intro h
  have hchars := congrArg String.toList h
  simp [writeRecord] at hchars

end TableFormat

namespace Table

variable {style : TableStyle} {kind : TableKind} {source : String} {classes : List ClassRecord}

/-! ### The bytes of a write -/

def headerBytes (style : TableStyle) (kind : TableKind) : Bytes :=
  style.charset.encode (style.format.writeRecord kind.header)

def rowBytes (style : TableStyle) (kind : TableKind) (source : String)
    (classes : List ClassRecord) : Bytes :=
  style.charset.encode (style.format.writeRecords (rows kind source classes))

theorem isPlain_header (format : TableFormat) (kind : TableKind) :
    ∀ c ∈ (format.writeRecord kind.header).toList, Charset.isPlain c = true := by
  apply format.isPlain_writeRecord
  cases kind with
  | methods => decide
  | fields => decide
  | constructors => decide

/-- A first write is the header and a later write. -/
theorem bytes_first (style : TableStyle) (kind : TableKind) (source : String)
    (classes : List ClassRecord) :
    bytes style false kind source classes =
      headerBytes style kind ++ rowBytes style kind source classes := by
  rw [bytes, records, if_neg (by decide), TableFormat.writeRecords_cons]
  exact Charset.Coding.encode_append _ (.inr (isPlain_header style.format kind)) _

theorem bytes_first_ne_nil (style : TableStyle) (kind : TableKind) (source : String)
    (classes : List ClassRecord) : bytes style false kind source classes ≠ [] := by
  have hheader : headerBytes style kind ≠ [] :=
    Charset.Coding.encode_ne_nil _ (isPlain_header style.format kind)
      (style.format.writeRecord_ne_empty kind.header)
  rw [bytes_first]
  intro hnil
  exact hheader (List.append_eq_nil_iff.mp hnil).1

/-- Every record of a table has as many cells as the header. -/
theorem length_of_mem_rows {record : List String} (h : record ∈ rows kind source classes) :
    record.length = kind.header.length := by
  obtain ⟨c, -, hrecord⟩ := List.mem_flatMap.mp h
  cases kind with
  | methods =>
    obtain ⟨m, -, rfl⟩ := List.mem_map.mp hrecord
    rfl
  | fields =>
    obtain ⟨f, -, rfl⟩ := List.mem_map.mp hrecord
    rfl
  | constructors =>
    obtain ⟨k, -, rfl⟩ := List.mem_map.mp hrecord
    rfl

/-! ### One write -/

variable {files : FileSystem} {started : StartedTables} {path : String} {written : Written}

/-- What a file holds after a write to a table: its old content stays only if the table was started. -/
def grown (old : Bytes) (style : TableStyle) (goesOn : Bool) (kind : TableKind) (source : String)
    (classes : List ClassRecord) : Bytes :=
  (if goesOn then old else []) ++ bytes style goesOn kind source classes

/-- A write does not fail where a file is or can be made. -/
theorem write_of_target? {location : Location} (h : files.target? path = some location)
    (started : StartedTables) (style : TableStyle) (kind : TableKind) (source : String)
    (classes : List ClassRecord) :
    write files started style kind path source classes =
      .ok ⟨files.put location (.file (grown (files.contentAt location) style
        (started.contains kind path) kind source classes)), started.insert kind path,
        (rows kind source classes).length⟩ := by
  rw [write, FileSystem.write_of_target? h]
  cases started.contains kind path with
  | true => rfl
  | false => rfl

/-- A write that succeeds puts one file, or adds no bytes to a device. -/
theorem write_eq_ok (h : write files started style kind path source classes = .ok written) :
    written.started = started.insert kind path ∧
    written.count = (rows kind source classes).length ∧
    ((∃ location, files.target? path = some location ∧
        written.files = files.put location (.file (grown (files.contentAt location) style
          (started.contains kind path) kind source classes))) ∨
      ((∃ location, files.lookup true path = .ok (.existing location .fullDevice)) ∧
        started.contains kind path = true ∧ written.files = files)) := by
  rw [write] at h
  cases hwrite : files.write path (if started.contains kind path then .append else .replace)
      (bytes style (started.contains kind path) kind source classes) with
  | error e =>
    rw [hwrite] at h
    cases e with
    | opening cause => cases h
    | writing cause => cases h
  | ok after =>
    rw [hwrite] at h
    cases h
    refine ⟨rfl, rfl, ?_⟩
    rcases FileSystem.write_eq_ok_iff.mp hwrite with ⟨location, htarget, hput⟩ | ⟨hdevice, hnil, hsame⟩
    · refine Or.inl ⟨location, htarget, ?_⟩
      cases hstarted : started.contains kind path with
      | true =>
        rw [hstarted] at hput
        exact hput
      | false =>
        rw [hstarted] at hput
        exact hput
    · refine Or.inr ⟨hdevice, ?_, hsame⟩
      cases hstarted : started.contains kind path with
      | true => rfl
      | false =>
        rw [hstarted] at hnil
        exact absurd hnil (bytes_first_ne_nil style kind source classes)

/-- A write puts a file if the path of a started table leads to one in some spelling. -/
theorem write_puts (h : write files started style kind path source classes = .ok written)
    (hled : started.contains kind path = true → ∃ other location,
      Path.components other = Path.components path ∧ files.target? other = some location) :
    written.started = started.insert kind path ∧
    written.count = (rows kind source classes).length ∧
    ∃ location, files.target? path = some location ∧
      written.files = files.put location (.file (grown (files.contentAt location) style
        (started.contains kind path) kind source classes)) := by
  obtain ⟨hinsert, hcount, hfile | ⟨⟨place, hdevice⟩, hstarted, -⟩⟩ := write_eq_ok h
  · exact ⟨hinsert, hcount, hfile⟩
  · -- A spelling that leads to a file does not lead to a device.
    obtain ⟨other, location, hcomponents, htarget⟩ := hled hstarted
    obtain ⟨found, hlook, hfile⟩ := FileSystem.target?_eq_some_iff.mp htarget
    have hplace := FileSystem.lookup_eq_of_components hcomponents hlook
      (FileSystem.Place.isDirectory_of_file? hfile) hdevice rfl
    rw [hplace] at hfile
    cases hfile

end Table

namespace StartedTables

theorem contains_iff {started : StartedTables} {kind : TableKind} {path : String} :
    started.contains kind path = true ↔ keyOf kind path ∈ started.keys := by
  rw [contains, List.contains_iff_mem]

theorem keyOf_eq_iff {kind kind' : TableKind} {path path' : String} :
    keyOf kind path = keyOf kind' path' ↔
      kind = kind' ∧ Path.components path = Path.components path' := by
  rw [keyOf, keyOf, Prod.mk.injEq]

end StartedTables

end ClassReport
