import ClassReport.Proofs.TableWriting
import ClassReport.Proofs.TextOrder
import Mathlib.Data.List.Basic

/-!
# Building the records of a table

A table is built in memory, byte by byte, by a writer that refuses a record with another number of
cells than the first, and the bytes are taken for text only if they are valid UTF-8. Neither check
fails for a table: `RecordBuffer.text_records` says that the records of every table are built, and that
they are the text that `TableFormat.writeRecords` gives. The writer looks at bytes and the format at
characters; they agree because a byte below 128 in UTF-8 is the character itself
(`byte_mem_encodeChar_iff`).
-/

namespace ClassReport

/-- Why records cannot be built. -/
inductive BuildError where
  /-- A record has another number of cells than the first one. -/
  | unequalLengths (expected found : Nat)
  | notUtf8
  deriving DecidableEq, Repr

/-- The records gathered in memory: their bytes, and how many cells the first of them had. -/
structure RecordBuffer where
  bytes : Bytes
  width : Option Nat
  deriving DecidableEq, Repr

namespace RecordBuffer

def empty : RecordBuffer := ⟨[], none⟩

def byteOf (c : Char) : UInt8 := UInt8.ofNat c.toNat

def isSpecial (format : TableFormat) (b : UInt8) : Bool :=
  b == byteOf format.delimiter || b == byteOf '"' || b == byteOf '\r' || b == byteOf '\n'

def doubled (cell : Bytes) : Bytes := cell.flatMap fun b => if b = byteOf '"' then [b, b] else [b]

def writeCell (format : TableFormat) (cell : Bytes) : Bytes :=
  if cell.any (isSpecial format) then byteOf '"' :: doubled cell ++ [byteOf '"'] else cell

/-- The cells of a record with delimiters between them. A record must not be a blank line, so one that
has no byte is written as an empty cell in quotes. -/
def line (format : TableFormat) (cells : List Bytes) : Bytes :=
  let joined := [byteOf format.delimiter].intercalate (cells.map (writeCell format))
  if joined.isEmpty then [byteOf '"', byteOf '"'] else joined

def add (format : TableFormat) (buffer : RecordBuffer) (cells : List String) :
    Except BuildError RecordBuffer :=
  let bytes := buffer.bytes ++ line format (cells.map utf8Bytes) ++ [byteOf '\r', byteOf '\n']
  match buffer.width with
  | none => .ok ⟨bytes, some cells.length⟩
  | some width =>
    if width = cells.length then .ok ⟨bytes, some width⟩
    else .error (.unequalLengths width cells.length)

/-- The records as text. The memory that holds them takes every byte, so only the records themselves
can be at fault. -/
def text (format : TableFormat) (records : List (List String)) : Except BuildError String :=
  match records.foldlM (add format) empty with
  | .error e => .error e
  | .ok buffer =>
    match String.fromUTF8? ⟨buffer.bytes.toArray⟩ with
    | none => .error .notUtf8
    | some text => .ok text

/-! ### Bytes and characters -/

/-- A byte below 128 is found in UTF-8 as the character that it is, and inside no other. -/
theorem byte_mem_encodeChar_iff {a c : Char} (ha : a.toNat < 128) :
    byteOf a ∈ String.utf8EncodeChar c ↔ c = a := by
  have hsame : c.toNat = a.toNat ↔ c = a := Char.toNat_inj
  have hbyte (n : Nat) : byteOf a = UInt8.ofNat n ↔ n % 256 = a.toNat := by
    rw [byteOf, ← UInt8.toNat_inj, UInt8.toNat_ofNat', UInt8.toNat_ofNat', Nat.mod_eq_of_lt (by omega),
      eq_comm]
  rw [← hsame, String.utf8EncodeChar]
  show _ ↔ c.val.toNat = _
  generalize c.val.toNat = v
  -- One case for each length; only the shortest has a byte below 128.
  repeat' split
  all_goals
    simp only [List.mem_cons, List.not_mem_nil, or_false, hbyte]
    omega

theorem utf8Bytes_intercalate (separator : String) (texts : List String) :
    utf8Bytes (separator.intercalate texts) = (utf8Bytes separator).intercalate (texts.map utf8Bytes) := by
  induction texts with
  | nil => rfl
  | cons text texts ih =>
    cases texts with
    | nil => rw [String.intercalate_singleton, List.map_singleton, List.intercalate_singleton]
    | cons next texts =>
      rw [String.intercalate_cons_cons, utf8Bytes_append, utf8Bytes_append, ih, List.map_cons,
        List.map_cons, List.map_cons, List.intercalate_cons_cons]

variable {format : TableFormat}

theorem any_isSpecial (c : Char) :
    (String.utf8EncodeChar c).any (isSpecial format) = TableFormat.isSpecial format.delimiter c := by
  have hdelimiter : format.delimiter.toNat < 128 := by cases format <;> decide
  rw [Bool.eq_iff_iff, List.any_eq_true]
  simp only [isSpecial, TableFormat.isSpecial, Bool.or_eq_true, beq_iff_eq, and_or_left, exists_or,
    exists_eq_right, byte_mem_encodeChar_iff hdelimiter,
    byte_mem_encodeChar_iff (a := '"') (by decide), byte_mem_encodeChar_iff (a := '\r') (by decide),
    byte_mem_encodeChar_iff (a := '\n') (by decide)]

theorem doubled_encodeChar (c : Char) :
    doubled (String.utf8EncodeChar c) =
      (if c = '"' then [c, c] else [c]).flatMap String.utf8EncodeChar := by
  by_cases hc : c = '"'
  · rw [hc]
    rfl
  · have hfree : ∀ b ∈ String.utf8EncodeChar c, (if b = byteOf '"' then [b, b] else [b]) = [b] := by
      intro b hb
      have hne : b ≠ byteOf '"' := by
        rintro rfl
        exact hc ((byte_mem_encodeChar_iff (by decide)).mp hb)
      rw [if_neg hne]
    rw [if_neg hc, List.flatMap_singleton, doubled, List.flatMap_congr hfree, List.flatMap_singleton']

theorem writeCell_utf8Bytes (cell : String) :
    writeCell format (utf8Bytes cell) = utf8Bytes (format.writeCell cell) := by
  have hspecial : (utf8Bytes cell).any (isSpecial format) =
      cell.toList.any (TableFormat.isSpecial format.delimiter) := by
    rw [Utf8Order.utf8Bytes_eq, List.any_flatMap]
    simp only [any_isSpecial]
  have hdoubled : doubled (utf8Bytes cell) =
      (TableFormat.doubled cell.toList).flatMap String.utf8EncodeChar := by
    rw [Utf8Order.utf8Bytes_eq, doubled, TableFormat.doubled, List.flatMap_assoc, List.flatMap_assoc]
    exact List.flatMap_congr fun c _ => doubled_encodeChar c
  rw [writeCell, TableFormat.writeCell, hspecial, hdoubled]
  split
  · rw [Utf8Order.utf8Bytes_eq, String.toList_ofList, List.flatMap_append, List.flatMap_cons]
    rfl
  · rfl

/-! ### Records -/

theorem line_utf8Bytes {cells : List String} (h : 1 < cells.length) :
    line format (cells.map utf8Bytes) ++ [byteOf '\r', byteOf '\n'] =
      utf8Bytes (format.writeRecord cells) := by
  have hjoined : [byteOf format.delimiter].intercalate ((cells.map utf8Bytes).map (writeCell format)) =
      utf8Bytes ((String.singleton format.delimiter).intercalate (cells.map format.writeCell)) := by
    have hdelimiter : utf8Bytes (String.singleton format.delimiter) = [byteOf format.delimiter] := by
      cases format <;> rfl
    rw [utf8Bytes_intercalate, hdelimiter, List.map_map, List.map_map]
    exact congrArg _ (List.map_congr_left fun cell _ => writeCell_utf8Bytes cell)
  -- Between two cells there is a delimiter.
  have hbyte : ([byteOf format.delimiter].intercalate
      ((cells.map utf8Bytes).map (writeCell format))).isEmpty = false := by
    match cells, h with
    | first :: second :: cells, _ =>
      rw [List.map_cons, List.map_cons, List.map_cons, List.map_cons, List.intercalate_cons_cons]
      simp
  rw [line, hbyte, if_neg (by decide), hjoined, TableFormat.writeRecord, utf8Bytes_append]
  rfl

theorem foldlM_add {records : List (List String)} {width : Nat} (hwidth : 1 < width)
    (h : ∀ record ∈ records, record.length = width) (buffer : RecordBuffer)
    (hbuffer : buffer.width = none ∨ buffer.width = some width) :
    ∃ grown, records.foldlM (add format) buffer =
      .ok ⟨buffer.bytes ++ utf8Bytes (format.writeRecords records), grown⟩ := by
  induction records generalizing buffer with
  | nil =>
    refine ⟨buffer.width, ?_⟩
    have hnone : utf8Bytes (format.writeRecords []) = [] := rfl
    rw [hnone, List.append_nil]
    rfl
  | cons record records ih =>
    obtain ⟨hrecord, hrecords⟩ := List.forall_mem_cons.mp h
    have hadd : add format buffer record =
        .ok ⟨buffer.bytes ++ utf8Bytes (format.writeRecord record), some width⟩ := by
      rw [← line_utf8Bytes (by rw [hrecord]; exact hwidth), ← List.append_assoc]
      rcases hbuffer with hnone | hsome
      · simp only [add, hnone, hrecord]
      · simp only [add, hsome, hrecord, if_true]
    obtain ⟨grown, hgrown⟩ := ih hrecords
      ⟨buffer.bytes ++ utf8Bytes (format.writeRecord record), some width⟩ (Or.inr rfl)
    refine ⟨grown, ?_⟩
    rw [List.foldlM_cons, hadd, TableFormat.writeRecords_cons, utf8Bytes_append, ← List.append_assoc]
    exact hgrown

theorem fromUTF8?_utf8Bytes (text : String) : String.fromUTF8? ⟨(utf8Bytes text).toArray⟩ = some text := by
  have hsame : (⟨(utf8Bytes text).toArray⟩ : ByteArray) = text.toByteArray := rfl
  rw [hsame, String.fromUTF8?, dif_pos text.isValidUTF8]
  rfl

/-- Records of one width are built, and are the text that the format gives. -/
theorem text_of_width {records : List (List String)} {width : Nat} (hwidth : 1 < width)
    (h : ∀ record ∈ records, record.length = width) :
    text format records = .ok (format.writeRecords records) := by
  obtain ⟨grown, hgrown⟩ := foldlM_add hwidth h empty (Or.inl rfl)
  rw [text, hgrown]
  simp only [empty, List.nil_append, fromUTF8?_utf8Bytes]

/-- The records of a table are built, with the header and without it. -/
theorem text_records (format : TableFormat) (started : Bool) (kind : TableKind) (source : String)
    (classes : List ClassRecord) :
    text format (Table.records started kind source classes) =
      .ok (format.writeRecords (Table.records started kind source classes)) := by
  have hwidth : 1 < kind.header.length := by cases kind <;> decide
  have hrows : ∀ record ∈ Table.rows kind source classes, record.length = kind.header.length :=
    fun _ hrecord => Table.length_of_mem_rows hrecord
  refine text_of_width hwidth ?_
  cases started with
  | true => exact hrows
  | false => exact List.forall_mem_cons.mpr ⟨rfl, hrows⟩

example : text .csv [["a", "b"], ["c"]] = .error (.unequalLengths 2 1) := rfl

end RecordBuffer

end ClassReport
