import ClassReport.Proofs.TableWriting

/-!
# Headers and files over many writes

Tables are told apart by kind and path, files by where a path leads, and the two do not correspond: one
file may be reached from many keys. `Recorded` relates the started tables and all files to the writes that
succeeded so far; one write preserves it (`recorded_call`), so every sequence of writes does
(`recorded_run`).
-/

namespace ClassReport.Table

/-! ### Sequences of writes -/

/-- A write that is asked for. -/
structure Call where
  style : TableStyle
  kind : TableKind
  path : String
  source : String
  classes : List ClassRecord

namespace Call

def key (call : Call) : TableKey := StartedTables.keyOf call.kind call.path

def headerBytes (call : Call) : Bytes := Table.headerBytes call.style call.kind

def rowBytes (call : Call) : Bytes :=
  Table.rowBytes call.style call.kind call.source call.classes

end Call

/-- What there is between two writes. -/
structure Stage where
  files : FileSystem
  started : StartedTables
  deriving DecidableEq, Repr

/-- A write that succeeded: whether the table had not been started, and the file that its path led to. -/
structure Success where
  call : Call
  isFirst : Bool
  opened : Option Location

def Success.bytes (success : Success) : Bytes :=
  Table.bytes success.call.style (!success.isFirst) success.call.kind success.call.source
    success.call.classes

namespace Stage

def initial (files : FileSystem) : Stage := ⟨files, .empty⟩

def write (stage : Stage) (call : Call) : Except Failure Written :=
  Table.write stage.files stage.started call.style call.kind call.path call.source call.classes

/-- What a write leaves. A write that fails leaves all as it was. -/
def call (stage : Stage) (call : Call) : Stage :=
  match stage.write call with
  | .ok written => ⟨written.files, written.started⟩
  | .error _ => stage

/-- What there is to say about a write if it succeeds. -/
def success (stage : Stage) (call : Call) : List Success :=
  match stage.write call with
  | .ok _ =>
    [⟨call, !stage.started.contains call.kind call.path, stage.files.target? call.path⟩]
  | .error _ => []

def run (stage : Stage) (calls : List Call) : Stage := calls.foldl Stage.call stage

def successes : Stage → List Call → List Success
  | _, [] => []
  | stage, call :: calls => stage.success call ++ (stage.call call).successes calls

end Stage

/-! ### The invariant -/

def bytesAt (location : Location) (log : List Success) : Bytes :=
  (log.filter (·.opened = some location)).flatMap Success.bytes

/-- A file holds what was written from the last write on that was the first to its table. -/
def Holding (files : FileSystem) (location : Location) (log : List Success) : Prop :=
  ∃ before first after, log = before ++ first :: after ∧
    first.opened = some location ∧ first.isFirst = true ∧
    (∀ later ∈ after, later.opened = some location → later.isFirst = false) ∧
    files.get? location = some (.file (bytesAt location (first :: after)))

/-- How files and started tables come from the files of old and the writes that succeeded since. -/
structure Recorded (origin : FileSystem) (log : List Success) (stage : Stage) : Prop where
  started : ∀ key, key ∈ stage.started.keys ↔ ∃ success ∈ log, success.call.key = key
  opened : ∀ success ∈ log, ∃ location, success.opened = some location ∧
    stage.files.target? success.call.path = some location
  isFirst : ∀ before success after, log = before ++ success :: after →
    (success.isFirst = true ↔ ∀ earlier ∈ before, earlier.call.key ≠ success.call.key)
  untouched : ∀ location, (∀ success ∈ log, success.opened ≠ some location) →
    stage.files.get? location = origin.get? location
  holding : ∀ location, (∃ success ∈ log, success.opened = some location) →
    Holding stage.files location log

theorem recorded_initial (files : FileSystem) : Recorded files [] (.initial files) where
  started key := by simp [Stage.initial, StartedTables.empty]
  opened success h := by cases h
  isFirst before success after h := by simp at h
  untouched location _ := rfl
  holding location h := by
    obtain ⟨success, hmem, -⟩ := h
    cases hmem

variable {origin : FileSystem} {log : List Success} {stage : Stage} {call : Call}
  {written : Written} {location : Location}

namespace Recorded

theorem contains_iff (h : Recorded origin log stage) (kind : TableKind) (path : String) :
    stage.started.contains kind path = true ↔
      ∃ success ∈ log, success.call.key = StartedTables.keyOf kind path := by
  rw [StartedTables.contains_iff, h.started]

/-- A path of a started table leads to the file that was opened for it, if it leads to any. -/
theorem opened_of_contains (h : Recorded origin log stage)
    (hstarted : stage.started.contains call.kind call.path = true) :
    ∃ success ∈ log, ∃ location, success.opened = some location ∧
      stage.files.target? success.call.path = some location ∧
      Path.components success.call.path = Path.components call.path := by
  obtain ⟨success, hmem, hkey⟩ := (h.contains_iff _ _).mp hstarted
  obtain ⟨location, hopened, htarget⟩ := h.opened success hmem
  exact ⟨success, hmem, location, hopened, htarget, (StartedTables.keyOf_eq_iff.mp hkey).2⟩

theorem write_ok (h : Recorded origin log stage) (hwrite : stage.write call = .ok written) :
    written.started = stage.started.insert call.kind call.path ∧
    ∃ location, stage.files.target? call.path = some location ∧
      written.files = stage.files.put location (.file (grown (stage.files.contentAt location)
        call.style (stage.started.contains call.kind call.path) call.kind call.source
        call.classes)) := by
  have hled (hstarted : stage.started.contains call.kind call.path = true) :
      ∃ other location, Path.components other = Path.components call.path ∧
        stage.files.target? other = some location := by
    obtain ⟨success, -, location, -, htarget, hcomponents⟩ := h.opened_of_contains hstarted
    exact ⟨success.call.path, location, hcomponents, htarget⟩
  obtain ⟨hinsert, -, hfile⟩ := write_puts hwrite hled
  exact ⟨hinsert, hfile⟩

theorem started_call (h : Recorded origin log stage)
    (hinsert : written.started = stage.started.insert call.kind call.path) (success : Success)
    (hcall : success.call = call) (key : TableKey) :
    key ∈ written.started.keys ↔ ∃ s ∈ log ++ [success], s.call.key = key := by
  rw [hinsert, StartedTables.insert, List.mem_cons, h.started]
  constructor
  · rintro (hkey | ⟨s, hs, hkey⟩)
    · refine ⟨success, by simp, ?_⟩
      rw [hcall, hkey]
      rfl
    · exact ⟨s, List.mem_append_left _ hs, hkey⟩
  · rintro ⟨s, hs, hkey⟩
    rcases List.mem_append.mp hs with hs | hs
    · exact Or.inr ⟨s, hs, hkey⟩
    · rw [List.mem_singleton] at hs
      rw [hs, hcall] at hkey
      exact Or.inl hkey.symm

theorem isFirst_call (h : Recorded origin log stage) {success : Success}
    (hfirst : success.isFirst = !stage.started.contains success.call.kind success.call.path)
    (before : List Success) (s : Success) (after : List Success)
    (hlog : log ++ [success] = before ++ s :: after) :
    s.isFirst = true ↔ ∀ earlier ∈ before, earlier.call.key ≠ s.call.key := by
  rcases List.eq_nil_or_concat after with rfl | ⟨middle, last, rfl⟩
  · obtain ⟨rfl, hs⟩ := List.append_inj' hlog rfl
    rw [List.cons.injEq] at hs
    rw [← hs.1, hfirst, Bool.not_eq_true', ← Bool.not_eq_true, h.contains_iff]
    constructor
    · intro hnone earlier hmem hkey
      exact hnone ⟨earlier, hmem, hkey⟩
    · rintro hall ⟨earlier, hmem, hkey⟩
      exact hall earlier hmem hkey
  · rw [List.concat_eq_append, ← List.cons_append, ← List.append_assoc] at hlog
    obtain ⟨hbefore, -⟩ := List.append_inj' hlog rfl
    exact h.isFirst before s middle hbefore

end Recorded

theorem bytesAt_append (location : Location) (log more : List Success) :
    bytesAt location (log ++ more) = bytesAt location log ++ bytesAt location more := by
  rw [bytesAt, List.filter_append, List.flatMap_append, bytesAt, bytesAt]

theorem bytesAt_opened {success : Success} (h : success.opened = some location) :
    bytesAt location [success] = success.bytes := by
  simp [bytesAt, h]

theorem bytesAt_other {success : Success} (h : success.opened ≠ some location) :
    bytesAt location [success] = [] := by
  simp [bytesAt, h]

/-- Bytes behind those of a file keep what it holds in line with the writes. -/
theorem Holding.append {files after : FileSystem} {success : Success}
    (h : Holding files location log)
    (hlater : success.opened = some location → success.isFirst = false)
    (hget : ∀ old, files.get? location = some (.file old) →
      after.get? location = some (.file (old ++ bytesAt location [success]))) :
    Holding after location (log ++ [success]) := by
  obtain ⟨before, first, rest, rfl, hopened, hfirst, hrest, hold⟩ := h
  refine ⟨before, first, rest ++ [success], by simp, hopened, hfirst, ?_, ?_⟩
  · intro later hmem hloc
    rcases List.mem_append.mp hmem with hmem | hmem
    · exact hrest later hmem hloc
    · rw [List.mem_singleton] at hmem
      rw [hmem] at hloc ⊢
      exact hlater hloc
  · rw [← List.cons_append, bytesAt_append]
    exact hget _ hold

namespace Recorded

/-- What the file holds that was opened by a write. -/
theorem holding_call (h : Recorded origin log stage)
    (htarget : stage.files.target? call.path = some location) {success : Success}
    (hcall : success.call = call) (hopened : success.opened = some location)
    (hfirst : success.isFirst = !stage.started.contains call.kind call.path) :
    Holding (stage.files.put location (.file (grown (stage.files.contentAt location) call.style
      (stage.started.contains call.kind call.path) call.kind call.source call.classes)))
      location (log ++ [success]) := by
  have hholds := FileSystem.holds_of_target? htarget
  have hbytes : success.bytes = Table.bytes call.style
      (stage.started.contains call.kind call.path) call.kind call.source call.classes := by
    rw [Success.bytes, hcall, hfirst, Bool.not_not]
  cases hstarted : stage.started.contains call.kind call.path with
  | false =>
    rw [hstarted] at hfirst hbytes
    refine ⟨log, success, [], rfl, hopened, hfirst, ?_, ?_⟩
    · intro later hmem
      exact absurd hmem List.not_mem_nil
    · rw [hholds.get?_put, if_pos rfl, bytesAt_opened hopened, hbytes]
      rfl
  | true =>
    -- The file of a started table has been opened before, under whatever spelling.
    rw [hstarted] at hfirst hbytes
    obtain ⟨earlier, hmem, place, hplace, hthere, hcomponents⟩ := h.opened_of_contains hstarted
    have heq := FileSystem.target?_eq_of_components hcomponents hthere htarget
    rw [heq] at hplace
    refine (h.holding location ⟨earlier, hmem, hplace⟩).append (fun _ => hfirst) ?_
    intro old hold
    rw [hholds.get?_put, if_pos rfl, FileSystem.contentAt_of_get? hold, bytesAt_opened hopened,
      hbytes]
    rfl

/-- A file that the write did not open still holds what it held. -/
theorem holding_other (h : Recorded origin log stage) {success : Success}
    (hopened : success.opened = some location) {place : Location} (hplace : place ≠ location)
    {content : Bytes} (hholds : FileSystem.Holds stage.files location)
    (hsome : ∃ s ∈ log ++ [success], s.opened = some place) :
    Holding (stage.files.put location (.file content)) place (log ++ [success]) := by
  have hother : success.opened ≠ some place := by
    rw [hopened]
    intro heq
    exact hplace (Option.some.inj heq).symm
  obtain ⟨s, hmem, hs⟩ := hsome
  rcases List.mem_append.mp hmem with hmem | hmem
  · refine (h.holding place ⟨s, hmem, hs⟩).append (fun heq => absurd heq hother) ?_
    intro old hold
    rw [hholds.get?_put, if_neg hplace, bytesAt_other hother, List.append_nil]
    exact hold
  · rw [List.mem_singleton] at hmem
    rw [hmem] at hs
    exact absurd hs hother

/-- Paths still lead where they led, and that of the write to the file that was opened. -/
theorem opened_call (h : Recorded origin log stage)
    (htarget : stage.files.target? call.path = some location) {success : Success}
    (hcall : success.call = call) (hopened : success.opened = some location) {content : Bytes} :
    ∀ s ∈ log ++ [success], ∃ place, s.opened = some place ∧
      (stage.files.put location (.file content)).target? s.call.path = some place := by
  have hholds := FileSystem.holds_of_target? htarget
  intro s hmem
  rcases List.mem_append.mp hmem with hmem | hmem
  · obtain ⟨place, hs, hplace⟩ := h.opened s hmem
    exact ⟨place, hs, FileSystem.target?_put hholds hplace⟩
  · rw [List.mem_singleton] at hmem
    rw [hmem, hcall]
    exact ⟨location, hopened, FileSystem.target?_put hholds htarget⟩

theorem untouched_call (h : Recorded origin log stage) {success : Success}
    (hopened : success.opened = some location) (hholds : FileSystem.Holds stage.files location)
    {content : Bytes} (place : Location)
    (hnone : ∀ s ∈ log ++ [success], s.opened ≠ some place) :
    (stage.files.put location (.file content)).get? place = origin.get? place := by
  have hne : place ≠ location := by
    rintro rfl
    exact hnone success (by simp) hopened
  rw [hholds.get?_put, if_neg hne]
  exact h.untouched place fun s hmem => hnone s (List.mem_append_left _ hmem)

end Recorded

/-- One write keeps the record, whether it succeeds or not. -/
theorem recorded_call (h : Recorded origin log stage) (call : Call) :
    Recorded origin (log ++ stage.success call) (stage.call call) := by
  rw [Stage.success, Stage.call]
  cases hwrite : stage.write call with
  | error e =>
    rw [List.append_nil]
    exact h
  | ok written =>
    obtain ⟨hinsert, location, htarget, hput⟩ := h.write_ok hwrite
    have hholds := FileSystem.holds_of_target? htarget
    show Recorded origin
      (log ++ [⟨call, !stage.started.contains call.kind call.path, stage.files.target? call.path⟩])
      ⟨written.files, written.started⟩
    rw [htarget, hput]
    refine ⟨?_, ?_, ?_, ?_, ?_⟩
    · exact h.started_call hinsert _ rfl
    · exact h.opened_call htarget rfl rfl
    · exact h.isFirst_call rfl
    · exact h.untouched_call rfl hholds
    · intro place hsome
      by_cases hplace : place = location
      · rw [hplace]
        exact h.holding_call htarget rfl rfl rfl
      · exact h.holding_other rfl hplace hholds hsome

theorem recorded_run (h : Recorded origin log stage) (calls : List Call) :
    Recorded origin (log ++ stage.successes calls) (stage.run calls) := by
  induction calls generalizing log stage with
  | nil =>
    rw [Stage.successes, List.append_nil]
    exact h
  | cons call calls ih =>
    rw [Stage.successes, ← List.append_assoc]
    exact ih (recorded_call h call)

/-! ### What a sequence of writes leaves -/

theorem Success.bytes_eq (success : Success) :
    success.bytes =
      (if success.isFirst then success.call.headerBytes else []) ++ success.call.rowBytes := by
  rw [Success.bytes]
  cases success.isFirst with
  | true => exact bytes_first ..
  | false => rfl

/-- A file that was only opened for one table holds its header and then the rows of all writes to it. -/
theorem Recorded.get?_of_one_key (h : Recorded origin log stage) {key : TableKey} {header : Bytes}
    (hsome : ∃ success ∈ log, success.opened = some location)
    (hone : ∀ success ∈ log, success.opened = some location →
      success.call.key = key ∧ success.call.headerBytes = header) :
    stage.files.get? location = some (.file (header ++
      (log.filter (·.opened = some location)).flatMap fun success => success.call.rowBytes)) := by
  obtain ⟨before, first, after, hlog, hopened, hfirst, hlater, hget⟩ := h.holding location hsome
  have hmem : first ∈ log := by
    rw [hlog]
    simp
  obtain ⟨hkey, hheader⟩ := hone first hmem hopened
  have hbefore : before.filter (·.opened = some location) = [] := by
    rw [List.filter_eq_nil_iff]
    intro earlier hearlier hsame
    have hin : earlier ∈ log := by
      rw [hlog]
      exact List.mem_append_left _ hearlier
    have hnew := (h.isFirst before first after hlog).mp hfirst earlier hearlier
    rw [hkey, (hone earlier hin (by simpa using hsame)).1] at hnew
    exact hnew rfl
  have hrows : (after.filter (·.opened = some location)).flatMap Success.bytes =
      (after.filter (·.opened = some location)).flatMap fun success => success.call.rowBytes := by
    refine congrArg List.flatten (List.map_congr_left ?_)
    intro later hin
    obtain ⟨hin, hloc⟩ := List.mem_filter.mp hin
    rw [later.bytes_eq, hlater later hin (by simpa using hloc)]
    rfl
  rw [hget, bytesAt, hlog, List.filter_append, hbefore, List.nil_append,
    List.filter_cons_of_pos (by simpa using hopened), List.flatMap_cons, List.flatMap_cons, hrows,
    first.bytes_eq, hfirst, if_pos rfl, hheader, List.append_assoc]

/-- From no started table on, after any sequence of writes: a table is started if a write to it succeeded,
in any spelling of its path. Headers were written by the first successful write to each table and by no
other. A file that no write opened is as it was; any other holds the header of the last such first write
to it, its rows, and the rows of the later writes. -/
theorem run_initial (files : FileSystem) (calls : List Call) :
    let log := (Stage.initial files).successes calls
    let stage := (Stage.initial files).run calls
    (∀ kind path, stage.started.contains kind path = true ↔
      ∃ success ∈ log, success.call.kind = kind ∧
        Path.components success.call.path = Path.components path) ∧
    (∀ before success after, log = before ++ success :: after →
      (success.isFirst = true ↔ ∀ earlier ∈ before, earlier.call.kind = success.call.kind →
        Path.components earlier.call.path ≠ Path.components success.call.path) ∧
      success.opened.isSome = true) ∧
    (∀ location, (∀ success ∈ log, success.opened ≠ some location) →
      stage.files.get? location = files.get? location) ∧
    (∀ location, (∃ success ∈ log, success.opened = some location) →
      ∃ before first after, log = before ++ first :: after ∧
        first.opened = some location ∧ first.isFirst = true ∧
        (∀ later ∈ after, later.opened = some location → later.isFirst = false) ∧
        stage.files.get? location = some (.file
          ((first :: after.filter (·.opened = some location)).flatMap Success.bytes)) ∧
        first.bytes = first.call.headerBytes ++ first.call.rowBytes ∧
        ∀ later ∈ after, later.opened = some location → later.bytes = later.call.rowBytes) := by
  have h := recorded_run (recorded_initial files) calls
  rw [List.nil_append] at h
  refine ⟨?_, ?_, h.untouched, ?_⟩
  · intro kind path
    rw [h.contains_iff]
    simp only [Call.key, StartedTables.keyOf_eq_iff]
  · intro before success after hlog
    constructor
    · rw [h.isFirst before success after hlog]
      simp only [Call.key, ne_eq, StartedTables.keyOf_eq_iff, not_and]
    · have hmem : success ∈ (Stage.initial files).successes calls := by
        rw [hlog]
        simp
      obtain ⟨location, hopened, -⟩ := h.opened success hmem
      rw [hopened]
      rfl
  · intro location hsome
    obtain ⟨before, first, after, hlog, hopened, hfirst, hlater, hget⟩ := h.holding location hsome
    refine ⟨before, first, after, hlog, hopened, hfirst, hlater, ?_, ?_, ?_⟩
    · rw [hget, bytesAt, List.filter_cons_of_pos (by simpa using hopened)]
    · rw [first.bytes_eq, hfirst]
      rfl
    · intro later hmem hloc
      rw [later.bytes_eq, hlater later hmem hloc]
      rfl

/-! ### An ideograph in a name -/

/-- The codes that Shift_JIS has for ASCII and for one ideograph. -/
def excerpt? (c : Char) : Option Bytes :=
  if c.toNat < 0x80 then some [UInt8.ofNat c.toNat]
  else if c = '漢' then some [0x8a, 0xbf]
  else none

theorem excerpt?_plain {c : Char} (h : Charset.isPlain c = true) :
    excerpt? c = some [UInt8.ofNat c.toNat] := by
  rw [excerpt?, if_pos (Charset.lt_of_isPlain h)]

def ideographs : Charset where
  name := "Shift_JIS"
  coding := .multiByte (.ofCodes excerpt? fun _ => excerpt?_plain)
  labels := ["shift_jis"]

/-- A file system with one directory. -/
def yard : FileSystem := ⟨[(["d"], .directory)], []⟩

def ideograph : ClassRecord where
  name := "p.漢"
  package := "p"
  kind := .plainClass
  superclass := none
  interfaces := []
  fields := [⟨"count", "int", "private", false, []⟩]
  methods := []
  constructors := []

/-- The fields of the class, written to a table under some spelling of its path. -/
def ideographCall (path : String) : Call :=
  ⟨⟨.csv, ideographs⟩, .fields, path, "a.jar", [ideograph]⟩

/-- The record of the one field. -/
def ideographRow : Bytes :=
  utf8Bytes "a.jar,p." ++ [0x8a, 0xbf] ++ utf8Bytes ",count,int,private,false,\r\n"

theorem rowBytes_ideographCall (path : String) : (ideographCall path).rowBytes = ideographRow := by
  have hrow : Table.rowBytes ⟨.csv, ideographs⟩ .fields "a.jar" [ideograph] = ideographRow := by
    decide +kernel
  exact hrow

/-- The class in one table twice, under two spellings of its path. -/
theorem run_initial_ideograph :
    let stage := (Stage.initial yard).run [ideographCall "d/f.csv", ideographCall "d//f.csv"]
    stage.started.contains .fields "d/./f.csv" = true ∧
      stage.files.get? ["d", "f.csv"] =
        some (.file (Table.headerBytes ⟨.csv, ideographs⟩ .fields ++ ideographRow ++ ideographRow)) := by
  intro stage
  let once : Success := ⟨ideographCall "d/f.csv", true, some ["d", "f.csv"]⟩
  let again : Success := ⟨ideographCall "d//f.csv", false, some ["d", "f.csv"]⟩
  have hlog : (Stage.initial yard).successes [ideographCall "d/f.csv", ideographCall "d//f.csv"] =
      [once, again] := rfl
  obtain ⟨hstarted, -, -, hholds⟩ :=
    run_initial yard [ideographCall "d/f.csv", ideographCall "d//f.csv"]
  rw [hlog] at hstarted hholds
  refine ⟨(hstarted .fields "d/./f.csv").mpr ⟨once, List.mem_cons_self, rfl, by decide⟩, ?_⟩
  obtain ⟨before, first, after, hsplit, -, hfirst, -, hget, hbytes, hlater⟩ :=
    hholds ["d", "f.csv"] ⟨once, List.mem_cons_self, rfl⟩
  have hone : first = once ∧ after = [again] := by
    match before, hsplit with
    | [], hsplit =>
      cases hsplit
      exact ⟨rfl, rfl⟩
    | [_], hsplit =>
      cases hsplit
      cases hfirst
    | _ :: _ :: _, hsplit => simp at hsplit
  obtain ⟨rfl, rfl⟩ := hone
  have hagain : again.bytes = ideographRow :=
    (hlater again List.mem_cons_self rfl).trans (rowBytes_ideographCall _)
  have hboth : [again].filter (·.opened = some ["d", "f.csv"]) = [again] := rfl
  rw [hget, hboth, List.flatMap_cons, List.flatMap_singleton, hbytes, hagain, rowBytes_ideographCall]
  rfl

end ClassReport.Table
