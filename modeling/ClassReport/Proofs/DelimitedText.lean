import ClassReport.Table.Format

/-!
# Reading delimited text

A reader for the records of RFC 4180, with any delimiter: a cell is quoted as a whole or not at all, a
quote inside a quoted cell is written twice, and records end with CR and LF, where the last may go
without. What a table was written as is read back cell by cell (`readRecords_writeRecords`), whatever the
cells hold.
-/

namespace ClassReport.TableFormat

/-! ### The reader -/

/-- Where in a record a reader stands. -/
inductive Stand where
  | record
  /-- In front of a cell, behind a delimiter. -/
  | cell
  | plain
  | quoted
  /-- Behind a quote that closes the cell or is the first of two. -/
  | closing
  | ending
  deriving DecidableEq, Repr

/-- What has been read: records, the cells of the next one, and the characters of the next cell. -/
structure Scan where
  records : List (List String)
  cells : List String
  text : List Char
  stand : Stand
  deriving DecidableEq, Repr

namespace Scan

def start : Scan := ⟨[], [], [], .record⟩

def push (scan : Scan) (c : Char) (stand : Stand) : Scan :=
  { scan with text := scan.text ++ [c], stand := stand }

/-- The cells of the record, that at the end included. -/
def row (scan : Scan) : List String := scan.cells ++ [String.ofList scan.text]

/-- Behind a cell there is a delimiter or the end of the record. -/
def leave? (delimiter : Char) (scan : Scan) (c : Char) : Option Scan :=
  if c = delimiter then some { scan with cells := scan.row, text := [], stand := .cell }
  else if c = '\r' then some { scan with stand := .ending }
  else none

/-- A character outside quotes. -/
def bare? (delimiter : Char) (scan : Scan) (c : Char) : Option Scan :=
  if isSpecial delimiter c then scan.leave? delimiter c else some (scan.push c .plain)

def step? (delimiter : Char) (scan : Scan) (c : Char) : Option Scan :=
  match scan.stand with
  | .record | .cell =>
    if c = '"' then some { scan with stand := .quoted } else scan.bare? delimiter c
  | .plain => scan.bare? delimiter c
  | .quoted => if c = '"' then some { scan with stand := .closing } else some (scan.push c .quoted)
  | .closing => if c = '"' then some (scan.push c .quoted) else scan.leave? delimiter c
  | .ending => if c = '\n' then some ⟨scan.records ++ [scan.row], [], [], .record⟩ else none

/-- The records, when there are no more characters. -/
def finish? (scan : Scan) : Option (List (List String)) :=
  match scan.stand with
  | .record => some scan.records
  | .cell | .plain | .closing => some (scan.records ++ [scan.row])
  | .quoted | .ending => none

end Scan

def readRecords (format : TableFormat) (text : String) : Option (List (List String)) :=
  (text.toList.foldlM (Scan.step? format.delimiter) Scan.start).bind Scan.finish?

/-! ### Cells -/

/-- Where a cell may start. -/
def Stand.isStart : Stand → Bool
  | .record | .cell => true
  | _ => false

/-- Where a cell may end. -/
def Stand.isEnd : Stand → Bool
  | .quoted | .ending => false
  | _ => true

theorem delimiter_ne (format : TableFormat) :
    format.delimiter ≠ '"' ∧ format.delimiter ≠ '\r' := by
  cases format with
  | csv => exact ⟨by decide, by decide⟩
  | tsv => exact ⟨by decide, by decide⟩

variable {format : TableFormat} {records : List (List String)} {cells : List String}
  {text : List Char} {stand : Stand}

theorem Stand.eq_of_isStart (h : stand.isStart = true) : stand = .record ∨ stand = .cell := by
  cases stand with
  | record => exact Or.inl rfl
  | cell => exact Or.inr rfl
  | plain => cases h
  | quoted => cases h
  | closing => cases h
  | ending => cases h

theorem Stand.isEnd_of_isStart (h : stand.isStart = true) : stand.isEnd = true := by
  rcases Stand.eq_of_isStart h with rfl | rfl
  · rfl
  · rfl

/-- Where a cell may end, a special character that is no quote ends it. -/
theorem step?_leave {c : Char} (h : stand.isEnd = true) (hquote : c ≠ '"')
    (hspecial : isSpecial format.delimiter c = true) :
    Scan.step? format.delimiter ⟨records, cells, text, stand⟩ c =
      Scan.leave? format.delimiter ⟨records, cells, text, stand⟩ c := by
  cases stand with
  | record => exact (if_neg hquote).trans (if_pos hspecial)
  | cell => exact (if_neg hquote).trans (if_pos hspecial)
  | plain => exact if_pos hspecial
  | closing => exact if_neg hquote
  | quoted => cases h
  | ending => cases h

theorem step?_delimiter (h : stand.isEnd = true) :
    Scan.step? format.delimiter ⟨records, cells, text, stand⟩ format.delimiter =
      some ⟨records, cells ++ [String.ofList text], [], .cell⟩ := by
  have hspecial : isSpecial format.delimiter format.delimiter = true := by simp [isSpecial]
  rw [step?_leave h (delimiter_ne format).1 hspecial, Scan.leave?, if_pos rfl]
  rfl

theorem step?_return (h : stand.isEnd = true) :
    Scan.step? format.delimiter ⟨records, cells, text, stand⟩ '\r' =
      some ⟨records, cells, text, .ending⟩ := by
  have hspecial : isSpecial format.delimiter '\r' = true := by simp [isSpecial]
  rw [step?_leave h (by decide) hspecial, Scan.leave?, if_neg (delimiter_ne format).2.symm, if_pos rfl]

/-- A quote opens a cell where one may start. -/
theorem step?_open (delimiter : Char) (h : stand.isStart = true) :
    Scan.step? delimiter ⟨records, cells, text, stand⟩ '"' =
      some ⟨records, cells, text, .quoted⟩ := by
  rcases Stand.eq_of_isStart h with rfl | rfl
  · rw [Scan.step?, if_pos rfl]
  · rw [Scan.step?, if_pos rfl]

theorem step?_bare {c : Char} (hc : isSpecial format.delimiter c = false)
    (h : stand.isStart = true ∨ stand = .plain) :
    Scan.step? format.delimiter ⟨records, cells, text, stand⟩ c =
      some ⟨records, cells, text ++ [c], .plain⟩ := by
  have hquote : c ≠ '"' := by
    rintro rfl
    simp [isSpecial] at hc
  have hbare (stand : Stand) : Scan.bare? format.delimiter ⟨records, cells, text, stand⟩ c =
      some ⟨records, cells, text ++ [c], .plain⟩ := by
    rw [Scan.bare?, hc]
    rfl
  rcases h with h | rfl
  · rcases Stand.eq_of_isStart h with rfl | rfl
    · rw [Scan.step?, if_neg hquote, hbare]
    · rw [Scan.step?, if_neg hquote, hbare]
  · rw [Scan.step?, hbare]

/-- A cell without special characters, once its first character was read. -/
theorem foldlM_plain {chars : List Char} (h : chars.any (isSpecial format.delimiter) = false) :
    chars.foldlM (Scan.step? format.delimiter) ⟨records, cells, text, .plain⟩ =
      some ⟨records, cells, text ++ chars, .plain⟩ := by
  induction chars generalizing text with
  | nil => simp
  | cons c chars ih =>
    rw [List.any_cons, Bool.or_eq_false_iff] at h
    rw [List.foldlM_cons, step?_bare h.1 (Or.inr rfl), Option.bind_eq_bind, Option.bind_some,
      ih h.2, List.append_assoc]
    rfl

theorem foldlM_doubled (chars : List Char) :
    (doubled chars).foldlM (Scan.step? format.delimiter) ⟨records, cells, text, .quoted⟩ =
      some ⟨records, cells, text ++ chars, .quoted⟩ := by
  induction chars generalizing text with
  | nil => simp [doubled]
  | cons c chars ih =>
    have hrest : doubled (c :: chars) = (if c = '"' then [c, c] else [c]) ++ doubled chars := rfl
    rw [hrest, List.foldlM_append]
    have hone : (if c = '"' then [c, c] else [c]).foldlM (Scan.step? format.delimiter)
        ⟨records, cells, text, .quoted⟩ = some ⟨records, cells, text ++ [c], .quoted⟩ := by
      by_cases hc : c = '"'
      · simp [hc, Scan.step?, Scan.push]
      · simp [hc, Scan.step?, Scan.push]
    rw [hone, Option.bind_eq_bind, Option.bind_some, ih, List.append_assoc]
    rfl

/-- A written cell is read as a whole. -/
theorem foldlM_writeCell (format : TableFormat) (records : List (List String))
    (cells : List String) (cell : String) (h : stand.isStart = true) :
    ∃ behind : Stand, behind.isEnd = true ∧
      (format.writeCell cell).toList.foldlM (Scan.step? format.delimiter)
        ⟨records, cells, [], stand⟩ = some ⟨records, cells, cell.toList, behind⟩ := by
  rw [writeCell]
  cases hspecial : cell.toList.any (isSpecial format.delimiter) with
  | true =>
    refine ⟨.closing, rfl, ?_⟩
    rw [if_pos rfl, String.toList_ofList, List.cons_append, List.foldlM_cons, step?_open _ h,
      Option.bind_eq_bind, Option.bind_some, List.foldlM_append, foldlM_doubled,
      Option.bind_eq_bind, Option.bind_some]
    simp [Scan.step?]
  | false =>
    rw [if_neg (by decide)]
    cases hchars : cell.toList with
    | nil => exact ⟨stand, Stand.isEnd_of_isStart h, rfl⟩
    | cons c chars =>
      rw [hchars, List.any_cons, Bool.or_eq_false_iff] at hspecial
      refine ⟨.plain, rfl, ?_⟩
      rw [List.foldlM_cons, step?_bare hspecial.1 (Or.inl h), Option.bind_eq_bind,
        Option.bind_some, foldlM_plain hspecial.2]
      rfl

/-! ### Records -/

/-- The rest of a record is read up to its end. -/
theorem foldlM_cells (format : TableFormat) (records : List (List String)) (cells : List String)
    (cell : String) (others : List String) (h : stand.isStart = true) :
    (format.writeRecord (cell :: others)).toList.foldlM (Scan.step? format.delimiter)
        ⟨records, cells, [], stand⟩ =
      some ⟨records ++ [cells ++ cell :: others], [], [], .record⟩ := by
  induction others generalizing cells cell stand with
  | nil =>
    obtain ⟨behind, hend, hcell⟩ := foldlM_writeCell format records cells cell h
    have htext : (format.writeRecord [cell]).toList = (format.writeCell cell).toList ++ ['\r', '\n'] := by
      simp [writeRecord]
    rw [htext, List.foldlM_append, hcell, Option.bind_eq_bind, Option.bind_some, List.foldlM_cons,
      step?_return hend, Option.bind_eq_bind, Option.bind_some]
    simp [Scan.step?, Scan.row]
  | cons next others ih =>
    obtain ⟨behind, hend, hcell⟩ := foldlM_writeCell format records cells cell h
    have htext : (format.writeRecord (cell :: next :: others)).toList =
        (format.writeCell cell).toList ++ format.delimiter ::
          (format.writeRecord (next :: others)).toList := by
      simp [writeRecord]
    rw [htext, List.foldlM_append, hcell, Option.bind_eq_bind, Option.bind_some, List.foldlM_cons,
      step?_delimiter hend, Option.bind_eq_bind, Option.bind_some, ih _ _ rfl]
    simp

theorem foldlM_writeRecords (format : TableFormat) (before : List (List String))
    {records : List (List String)} (h : ∀ record ∈ records, record ≠ []) :
    (format.writeRecords records).toList.foldlM (Scan.step? format.delimiter)
        ⟨before, [], [], .record⟩ = some ⟨before ++ records, [], [], .record⟩ := by
  induction records generalizing before with
  | nil => simp [writeRecords]
  | cons record records ih =>
    have hrest := ih (before ++ [record]) fun r hr => h r (List.mem_cons_of_mem _ hr)
    have htext : (format.writeRecords (record :: records)).toList =
        (format.writeRecord record).toList ++ (format.writeRecords records).toList := by
      simp [writeRecords]
    cases record with
    | nil => exact absurd rfl (h [] List.mem_cons_self)
    | cons cell others =>
      rw [htext, List.foldlM_append, foldlM_cells format before [] cell others rfl,
        Option.bind_eq_bind, Option.bind_some, List.nil_append, hrest, List.append_assoc]
      rfl

/-- Records are read back as they were written, whatever their cells hold. -/
theorem readRecords_writeRecords (format : TableFormat) {records : List (List String)}
    (h : ∀ record ∈ records, record ≠ []) :
    format.readRecords (format.writeRecords records) = some records := by
  rw [readRecords, Scan.start, foldlM_writeRecords format [] h]
  rfl

end ClassReport.TableFormat
