import ClassReport.Proofs.DelimitedText
import ClassReport.Proofs.TableWriting

/-!
# Reading a table back

A table that was filled by any number of writes, under any spelling of its path, and that nobody else has
touched, is decoded and read back as its header and the records of all writes in order
(`Filled.reads_back`). The charset is one that can write every text.
-/

namespace ClassReport

namespace TableFormat

theorem writeRecords_append (format : TableFormat) (records more : List (List String)) :
    format.writeRecords (records ++ more) =
      format.writeRecords records ++ format.writeRecords more := by
  rw [writeRecords, List.map_append, String.join_append, writeRecords, writeRecords]

end TableFormat

namespace Table

/-! ### Writes to one table -/

/-- What one write was asked for, and the count that it gave. -/
structure Portion where
  path : String
  source : String
  classes : List ClassRecord
  count : Nat
  deriving DecidableEq, Repr

def Portion.rows (kind : TableKind) (portion : Portion) : List (List String) :=
  Table.rows kind portion.source portion.classes

/-- Writes to the table with these path components, from no started table on: the files and the started
tables that they leave. Between two of them others may do anything that a look-up of the table's path does
not show, in whatever spelling. -/
inductive Filled (style : TableStyle) (kind : TableKind) (components : List Path.Component) :
    List Portion → FileSystem → StartedTables → Prop
  | fresh (files : FileSystem) : Filled style kind components [] files .empty
  | write {portions : List Portion} {files : FileSystem} {started : StartedTables}
      {path source : String} {classes : List ClassRecord} {written : Written}
      (before : Filled style kind components portions files started)
      (hpath : Path.components path = components)
      (hwrite : Table.write files started style kind path source classes = .ok written) :
      Filled style kind components (portions ++ [⟨path, source, classes, written.count⟩])
        written.files written.started
  | elsewhere {portions : List Portion} {files : FileSystem} {started : StartedTables}
      (before : Filled style kind components portions files started) (others : FileSystem)
      (hsame : ∀ path, Path.components path = components →
        others.lookup true path = files.lookup true path) :
      Filled style kind components portions others started

variable {style : TableStyle} {kind : TableKind} {components : List Path.Component}
  {portions : List Portion} {files : FileSystem} {started : StartedTables}

def filledBytes (style : TableStyle) (kind : TableKind) (portions : List Portion) : Bytes :=
  headerBytes style kind ++
    portions.flatMap fun portion => rowBytes style kind portion.source portion.classes

/-- All spellings that were used lead to one file, which holds the bytes of all writes. -/
structure Holds (style : TableStyle) (kind : TableKind) (components : List Path.Component)
    (portions : List Portion) (files : FileSystem) (started : StartedTables) : Prop where
  started : (kind, components) ∈ started.keys ↔ portions ≠ []
  counts : ∀ portion ∈ portions, portion.count = (portion.rows kind).length
  spelled : ∀ portion ∈ portions, Path.components portion.path = components
  leads : ∃ location, ∀ portion ∈ portions, files.lookup true portion.path =
    .ok (.existing location (.file (filledBytes style kind portions)))

namespace Holds

theorem contains_iff (h : Holds style kind components portions files started) {path : String}
    (hpath : Path.components path = components) :
    started.contains kind path = true ↔ portions ≠ [] := by
  rw [StartedTables.contains_iff, StartedTables.keyOf, hpath, h.started]

/-- Once there was a write, what a spelling leads to is the file of the table. -/
theorem contentAt_eq (h : Holds style kind components portions files started)
    (hne : portions ≠ []) {path : String} (hpath : Path.components path = components)
    {location : Location} (htarget : files.target? path = some location) :
    files.contentAt location = filledBytes style kind portions ∧
      ∀ portion ∈ portions, files.target? portion.path = some location := by
  obtain ⟨place, hleads⟩ := h.leads
  obtain ⟨first, hfirst⟩ := List.exists_mem_of_ne_nil portions hne
  have hplace : place = location := by
    refine FileSystem.target?_eq_of_components ?_ (FileSystem.target?_of_existing (hleads first hfirst))
      htarget
    rw [h.spelled first hfirst, hpath]
  rw [hplace] at hleads
  constructor
  · exact FileSystem.contentAt_of_get? (FileSystem.stands_of_lookup (hleads first hfirst))
  · intro portion hmem
    exact FileSystem.target?_of_existing (hleads portion hmem)

theorem grown_eq (h : Holds style kind components portions files started) {path source : String}
    (hpath : Path.components path = components) {location : Location}
    (htarget : files.target? path = some location) (classes : List ClassRecord) (count : Nat) :
    grown (files.contentAt location) style (started.contains kind path) kind source classes =
      filledBytes style kind (portions ++ [⟨path, source, classes, count⟩]) := by
  rw [filledBytes, List.flatMap_append, List.flatMap_singleton]
  cases hstarted : started.contains kind path with
  | false =>
    have hnil : portions = [] := by
      by_cases hne : portions = []
      · exact hne
      · rw [(h.contains_iff hpath).mpr hne] at hstarted
        cases hstarted
    rw [hnil]
    exact bytes_first style kind source classes
  | true =>
    have hne := (h.contains_iff hpath).mp hstarted
    rw [grown, if_pos rfl, (h.contentAt_eq hne hpath htarget).1, filledBytes, List.append_assoc]
    rfl

theorem write (h : Holds style kind components portions files started) {path source : String}
    {classes : List ClassRecord} {written : Written} (hpath : Path.components path = components)
    (hwrite : Table.write files started style kind path source classes = .ok written) :
    Holds style kind components (portions ++ [⟨path, source, classes, written.count⟩])
      written.files written.started := by
  have hled (hstarted : started.contains kind path = true) : ∃ other location,
      Path.components other = Path.components path ∧ files.target? other = some location := by
    obtain ⟨location, hleads⟩ := h.leads
    obtain ⟨first, hfirst⟩ := List.exists_mem_of_ne_nil portions ((h.contains_iff hpath).mp hstarted)
    refine ⟨first.path, location, ?_, FileSystem.target?_of_existing (hleads first hfirst)⟩
    rw [h.spelled first hfirst, hpath]
  obtain ⟨hinsert, hcount, location, htarget, hput⟩ := write_puts hwrite hled
  refine ⟨?_, ?_, ?_, location, ?_⟩
  · rw [hinsert, StartedTables.insert, StartedTables.keyOf, hpath]
    simp
  · intro portion hmem
    rcases List.mem_append.mp hmem with hmem | hmem
    · exact h.counts portion hmem
    · rw [List.mem_singleton] at hmem
      rw [hmem]
      exact hcount
  · intro portion hmem
    rcases List.mem_append.mp hmem with hmem | hmem
    · exact h.spelled portion hmem
    · rw [List.mem_singleton] at hmem
      rw [hmem]
      exact hpath
  · intro portion hmem
    rw [hput, h.grown_eq hpath htarget classes written.count]
    apply FileSystem.lookup_put_target
    rcases List.mem_append.mp hmem with hmem | hmem
    · exact (h.contentAt_eq (List.ne_nil_of_mem hmem) hpath htarget).2 portion hmem
    · rw [List.mem_singleton] at hmem
      rw [hmem]
      exact htarget

end Holds

theorem Filled.holds (h : Filled style kind components portions files started) :
    Holds style kind components portions files started := by
  induction h with
  | fresh files => exact ⟨by simp [StartedTables.empty], nofun, nofun, [], nofun⟩
  | write before hpath hwrite ih => exact ih.write hpath hwrite
  | elsewhere before others hsame ih =>
    obtain ⟨location, hleads⟩ := ih.leads
    refine ⟨ih.started, ih.counts, ih.spelled, location, ?_⟩
    intro portion hmem
    rw [hsame portion.path (ih.spelled portion hmem)]
    exact hleads portion hmem

/-! ### Reading -/

/-- In a Unicode charset, what was written in pieces is what is written at once. -/
theorem filledBytes_eq (h : style.charset.coding.isUnicode = true) (portions : List Portion) :
    filledBytes style kind portions =
      style.charset.encode
        (style.format.writeRecords (kind.header :: portions.flatMap (Portion.rows kind))) := by
  have hencode (first rest : String) :
      style.charset.encode (first ++ rest) =
        style.charset.encode first ++ style.charset.encode rest :=
    style.charset.coding.encode_append (.inl h) rest
  have hrows : (portions.flatMap fun portion => rowBytes style kind portion.source portion.classes) =
      style.charset.encode
        (style.format.writeRecords (portions.flatMap (Portion.rows kind))) := by
    induction portions with
    | nil => exact style.charset.coding.encode_empty.symm
    | cons portion portions ih =>
      rw [List.flatMap_cons, List.flatMap_cons, TableFormat.writeRecords_append, hencode, ih]
      rfl
  rw [filledBytes, hrows, TableFormat.writeRecords_cons, hencode, headerBytes]

theorem header_ne_nil (kind : TableKind) : kind.header ≠ [] := by
  cases kind with
  | methods => exact List.cons_ne_nil _ _
  | fields => exact List.cons_ne_nil _ _
  | constructors => exact List.cons_ne_nil _ _

theorem readRecords_portions (format : TableFormat) (kind : TableKind) (portions : List Portion) :
    format.readRecords
        (format.writeRecords (kind.header :: portions.flatMap (Portion.rows kind))) =
      some (kind.header :: portions.flatMap (Portion.rows kind)) := by
  apply TableFormat.readRecords_writeRecords
  intro record hmem
  rcases List.mem_cons.mp hmem with rfl | hmem
  · exact header_ne_nil kind
  · obtain ⟨portion, -, hrecord⟩ := List.mem_flatMap.mp hmem
    have hlength := length_of_mem_rows hrecord
    rintro rfl
    exact header_ne_nil kind (List.eq_nil_of_length_eq_zero hlength.symm)

/-- Whichever spelling was used for a write, what is read back through it is the header and then the
records of all writes in order; and the write counted its records. -/
theorem Filled.reads_back (h : Filled style kind components portions files started)
    (hunicode : style.charset.coding.isUnicode = true) :
    ∀ portion ∈ portions, portion.count = (portion.rows kind).length ∧
      ∃ content text, files.read portion.path = .ok content ∧
        style.charset.coding.decode? content = some text ∧
        style.format.readRecords text =
          some (kind.header :: portions.flatMap (Portion.rows kind)) := by
  have hholds := h.holds
  intro portion hmem
  obtain ⟨location, hleads⟩ := hholds.leads
  have htarget := FileSystem.target?_of_existing (hleads portion hmem)
  have hstands := FileSystem.stands_of_lookup (hleads portion hmem)
  refine ⟨hholds.counts portion hmem, filledBytes style kind portions,
    style.format.writeRecords (kind.header :: portions.flatMap (Portion.rows kind)), ?_, ?_, ?_⟩
  · exact FileSystem.read_of_target? htarget hstands
  · rw [filledBytes_eq hunicode]
    exact Charset.Coding.decode?_encode hunicode _
  · exact readRecords_portions style.format kind portions

/-- A class with a field whose name can only be written in quotes. -/
def awkward : ClassRecord where
  name := "p.A"
  package := "p"
  kind := .plainClass
  superclass := none
  interfaces := []
  fields := [⟨"a\"b,\r\n", "int", "private", false, []⟩]
  methods := []
  constructors := []

/-- Two inputs with an awkward class. -/
def awkwardPortions : List Portion :=
  [⟨"d/t.csv", "one.jar", [awkward], 1⟩, ⟨"d//t.csv", "two.jar", [awkward], 1⟩]

theorem rows_awkward (source : String) :
    rows .fields source [awkward] =
      [[source, "p.A", "a\"b,\r\n", "int", "private", "false", ""]] := by
  have hsorted : awkward.sortedFields = awkward.fields := List.mergeSort_singleton _
  rw [rows, List.flatMap_singleton, classRows, hsorted]
  rfl

theorem filled_awkward : ∃ files started, Filled ⟨.csv, .utf8⟩ .fields (Path.components "d/t.csv")
    awkwardPortions files started := by
  let yard : FileSystem := ⟨[(["d"], .directory)], []⟩
  have hfirst : yard.target? "d/t.csv" = some ["d", "t.csv"] := by decide
  have hsecond (content : Bytes) :
      (yard.put ["d", "t.csv"] (.file content)).target? "d//t.csv" = some ["d", "t.csv"] :=
    FileSystem.target?_put (FileSystem.holds_of_target? hfirst) (by decide)
  have hone := write_of_target? hfirst .empty ⟨.csv, .utf8⟩ .fields "one.jar" [awkward]
  have htwo (content : Bytes) (started : StartedTables) :=
    write_of_target? (hsecond content) started ⟨.csv, .utf8⟩ .fields "two.jar" [awkward]
  rw [rows_awkward] at hone
  simp only [rows_awkward] at htwo
  exact ⟨_, _, .write (.write (.fresh yard) rfl hone) (by decide) (htwo _ _)⟩

theorem reads_back_awkward : ∃ files started,
    Filled ⟨.csv, .utf8⟩ .fields (Path.components "d/t.csv") awkwardPortions files started ∧
    ∃ content text, files.read "d//t.csv" = .ok content ∧
      Charset.utf8.coding.decode? content = some text ∧
      TableFormat.csv.readRecords text = some
        [TableKind.fields.header,
          ["one.jar", "p.A", "a\"b,\r\n", "int", "private", "false", ""],
          ["two.jar", "p.A", "a\"b,\r\n", "int", "private", "false", ""]] := by
  obtain ⟨files, started, h⟩ := filled_awkward
  have hmem : (⟨"d//t.csv", "two.jar", [awkward], 1⟩ : Portion) ∈ awkwardPortions := by decide
  obtain ⟨-, content, text, hread, hdecode, hrecords⟩ := h.reads_back rfl _ hmem
  have hrows : awkwardPortions.flatMap (Portion.rows .fields) =
      rows .fields "one.jar" [awkward] ++ (rows .fields "two.jar" [awkward] ++ []) := rfl
  rw [hrows, rows_awkward, rows_awkward] at hrecords
  exact ⟨files, started, h, content, text, hread, hdecode, hrecords⟩

end Table

end ClassReport
