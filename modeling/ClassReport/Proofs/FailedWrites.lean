import ClassReport.Proofs.RecordBuffer
import ClassReport.Proofs.TableHeaders

/-!
# Writes that fail

A write to a table takes steps that can each fail: the records are built, the file is opened, the bytes
are written; only then is the table started. `Stage.perform` takes the steps one by one and keeps what
the steps before a failure did, and is the same as `Table.write` (`Stage.write_eq_perform`). What the
steps do to the started tables is `started_perform`, and over any number of attempts, with whatever
files each of them finds, `contains_startedAfter`.
-/

namespace ClassReport

namespace FileSystem

/-! ### Opening and writing -/

inductive Handle where
  | file (location : Location)
  | fullDevice
  deriving DecidableEq, Repr

/-- Opens what a path leads to. A file that is not there is made, and the old content is dropped unless
bytes are to be added to it. -/
def openFor (fs : FileSystem) (path : String) (mode : WriteMode) :
    Except OsError (Handle × FileSystem) :=
  match fs.lookup true path with
  | .error e => .error e
  | .ok (.vacant location) => .ok (.file location, fs.put location (.file []))
  | .ok (.existing location (.file old)) =>
    .ok (.file location, fs.put location (.file (mode.content old [])))
  | .ok (.existing _ .fullDevice) => .ok (.fullDevice, fs)
  | .ok (.existing _ _) => .error .isDirectory

/-- Writes at the end of what is open. -/
def writeAll (fs : FileSystem) (handle : Handle) (bytes : Bytes) : Except OsError FileSystem :=
  match handle with
  | .file location => .ok (fs.put location (.file (fs.contentAt location ++ bytes)))
  | .fullDevice => if bytes.isEmpty then .ok fs else .error .noSpace

variable {fs opened : FileSystem} {path : String} {mode : WriteMode} {handle : Handle} {bytes : Bytes}

theorem assign_assign (location : Location) (first second : Entry)
    (entries : List (Location × Entry)) :
    assign location second (assign location first entries) = assign location second entries := by
  induction entries with
  | nil => simp [assign]
  | cons entry entries ih =>
    obtain ⟨key, old⟩ := entry
    by_cases hkey : key = location
    · simp [assign, hkey]
    · simp [assign, hkey, ih]

theorem put_put (fs : FileSystem) (location : Location) (first second : Entry) :
    (fs.put location first).put location second = fs.put location second := by
  simp only [put, assign_assign]

theorem writeAll_put {location : Location} (h : Holds fs location) (old bytes : Bytes) :
    (fs.put location (.file old)).writeAll (.file location) bytes =
      .ok (fs.put location (.file (old ++ bytes))) := by
  have hget : (fs.put location (.file old)).get? location = some (.file old) := by
    rw [h.get?_put, if_pos rfl]
  rw [writeAll, contentAt_of_get? hget, put_put]

theorem write_eq_openFor (fs : FileSystem) (path : String) (mode : WriteMode) (bytes : Bytes) :
    fs.write path mode bytes =
      match fs.openFor path mode with
      | .error e => .error (.opening e)
      | .ok (handle, opened) =>
        match opened.writeAll handle bytes with
        | .error e => .error (.writing e)
        | .ok grown => .ok grown := by
  have hholds {place : Place} {location : Location} (hlook : fs.lookup true path = .ok place)
      (hfile : place.file? = some location) : Holds fs location :=
    (stands_of_lookup hlook).holds hfile
  rw [write, openFor]
  cases hlook : fs.lookup true path with
  | error e => rfl
  | ok place =>
    cases place with
    | vacant location =>
      simp only [writeAll_put (hholds hlook rfl), List.nil_append]
    | existing location entry =>
      cases entry with
      | file old =>
        have hcontent : mode.content old [] ++ bytes = mode.content old bytes := by
          cases mode <;> simp [WriteMode.content]
        simp only [writeAll_put (hholds hlook rfl), hcontent]
      | fullDevice => cases bytes <;> rfl
      | directory => rfl
      | link target => rfl

theorem writeAll_fullDevice (fs : FileSystem) (h : bytes ≠ []) :
    fs.writeAll .fullDevice bytes = .error .noSpace :=
  if_neg (mt List.isEmpty_iff.mp h)

/-- Writing to what was opened fails only on the device, which opening leaves as it is. -/
theorem eq_of_writeAll_eq_error {e : OsError} (hopen : fs.openFor path mode = .ok (handle, opened))
    (h : opened.writeAll handle bytes = .error e) : opened = fs := by
  cases handle with
  | file location => cases h
  | fullDevice =>
    rw [openFor] at hopen
    split at hopen <;> cases hopen
    rfl

theorem write_eq_opening_iff {e : OsError} :
    fs.write path mode bytes = .error (.opening e) ↔ fs.openFor path mode = .error e := by
  rw [write_eq_openFor]
  cases fs.openFor path mode with
  | error cause => simp
  | ok result => cases hwrite : result.2.writeAll result.1 bytes <;> simp [hwrite]

theorem write_eq_writing_iff {e : OsError} :
    fs.write path mode bytes = .error (.writing e) ↔
      ∃ handle opened, fs.openFor path mode = .ok (handle, opened) ∧
        opened.writeAll handle bytes = .error e := by
  rw [write_eq_openFor]
  cases fs.openFor path mode with
  | error cause => simp
  | ok result => cases hwrite : result.2.writeAll result.1 bytes <;> simp [hwrite, Prod.ext_iff]

end FileSystem

namespace StartedTables

theorem contains_insert {started : StartedTables} {kind kind' : TableKind} {path path' : String} :
    (started.insert kind' path').contains kind path = true ↔
      started.contains kind path = true ∨
        kind = kind' ∧ Path.components path = Path.components path' := by
  rw [contains_iff, contains_iff, ← keyOf_eq_iff, insert, List.mem_cons, or_comm]

end StartedTables

namespace Table

/-- The step at which a write failed, and why. -/
inductive StepError where
  | building (cause : BuildError)
  | opening (cause : OsError)
  | writing (cause : OsError)
  deriving DecidableEq, Repr

/-- What a write to that path reports. There is no report of records that cannot be built. -/
def StepError.failure? (path : String) : StepError → Option Failure
  | .building _ => none
  | .opening e => some (.openOutput path e)
  | .writing e => some (.writeOutput path e)

namespace Stage

/-! ### The steps of a write -/

def goesOn (stage : Stage) (call : Call) : Bool := stage.started.contains call.kind call.path

def mode (stage : Stage) (call : Call) : FileSystem.WriteMode :=
  if stage.goesOn call then .append else .replace

/-- The steps of a write, each of which ends it if it fails: the number of records or the failure, and
what there is then. -/
def perform (stage : Stage) (call : Call) : Except StepError Nat × Stage :=
  match RecordBuffer.text call.style.format
      (records (stage.goesOn call) call.kind call.source call.classes) with
  | .error e => (.error (.building e), stage)
  | .ok text =>
    match stage.files.openFor call.path (stage.mode call) with
    | .error e => (.error (.opening e), stage)
    | .ok (handle, opened) =>
      match opened.writeAll handle (call.style.charset.encode text) with
      | .error e => (.error (.writing e), { stage with files := opened })
      | .ok grown =>
        (.ok (rows call.kind call.source call.classes).length,
          ⟨grown, stage.started.insert call.kind call.path⟩)

def bytes (stage : Stage) (call : Call) : Bytes :=
  Table.bytes call.style (stage.goesOn call) call.kind call.source call.classes

/-- Opening or writing the destination fails. -/
def FailsWith (stage : Stage) (call : Call) : StepError → Prop
  | .building _ => False
  | .opening e => stage.files.openFor call.path (stage.mode call) = .error e
  | .writing e => ∃ handle opened, stage.files.openFor call.path (stage.mode call) =
      .ok (handle, opened) ∧ opened.writeAll handle (stage.bytes call) = .error e

variable {stage after : Stage} {call : Call} {e : StepError} {count : Nat}

/-- The records are built and nothing is left behind by a step that fails, so that what there is to a
write is what the file system makes of it. -/
theorem perform_eq (stage : Stage) (call : Call) :
    stage.perform call =
      match stage.files.write call.path (stage.mode call) (stage.bytes call) with
      | .error (.opening e) => (.error (.opening e), stage)
      | .error (.writing e) => (.error (.writing e), stage)
      | .ok grown =>
        (.ok (rows call.kind call.source call.classes).length,
          ⟨grown, stage.started.insert call.kind call.path⟩) := by
  -- Only opening can have changed anything when writing fails, and it has not.
  rw [perform, RecordBuffer.text_records, FileSystem.write_eq_openFor]
  cases hopen : stage.files.openFor call.path (stage.mode call) with
  | error e => rfl
  | ok result =>
    obtain ⟨handle, opened⟩ := result
    show (match opened.writeAll handle (stage.bytes call) with
      | .error _ => _
      | .ok _ => _) = _
    cases hwrite : opened.writeAll handle (stage.bytes call) with
    | error e =>
      have hsame := FileSystem.eq_of_writeAll_eq_error hopen hwrite
      subst hsame
      simp only [hwrite]
    | ok grown => simp only [hwrite]

theorem failsWith_iff :
    stage.FailsWith call e ↔ match e with
      | .building _ => False
      | .opening cause =>
        stage.files.write call.path (stage.mode call) (stage.bytes call) = .error (.opening cause)
      | .writing cause =>
        stage.files.write call.path (stage.mode call) (stage.bytes call) = .error (.writing cause) := by
  cases e with
  | building cause => exact Iff.rfl
  | opening cause => exact FileSystem.write_eq_opening_iff.symm
  | writing cause => exact FileSystem.write_eq_writing_iff.symm

theorem perform_eq_error_iff :
    stage.perform call = (.error e, after) ↔ stage.FailsWith call e ∧ after = stage := by
  rw [perform_eq, failsWith_iff]
  cases stage.files.write call.path (stage.mode call) (stage.bytes call) with
  | error cause => cases cause <;> cases e <;> simp [eq_comm]
  | ok grown => cases e <;> simp

theorem perform_eq_ok_iff :
    stage.perform call = (.ok count, after) ↔
      stage.files.write call.path (stage.mode call) (stage.bytes call) = .ok after.files ∧
        count = (rows call.kind call.source call.classes).length ∧
        after.started = stage.started.insert call.kind call.path := by
  obtain ⟨files, started⟩ := after
  rw [perform_eq]
  cases stage.files.write call.path (stage.mode call) (stage.bytes call) with
  | error cause => cases cause <;> simp
  | ok grown => simp [eq_comm, and_left_comm]

/-- The outcome of the steps as `Table.write` gives it. -/
def outcome (path : String) : Except StepError Nat × Stage → Except (Option Failure) Written
  | (.ok count, after) => .ok ⟨after.files, after.started, count⟩
  | (.error e, _) => .error (e.failure? path)

theorem write_eq_perform (stage : Stage) (call : Call) :
    (stage.write call).mapError some = outcome call.path (stage.perform call) := by
  rw [perform_eq, write, Table.write]
  show Except.mapError some (match stage.files.write call.path (stage.mode call) (stage.bytes call) with
    | .error (.opening _) => _
    | .error (.writing _) => _
    | .ok _ => _) = _
  cases stage.files.write call.path (stage.mode call) (stage.bytes call) with
  | error cause => cases cause <;> rfl
  | ok grown => rfl

/-! ### The started tables over any number of attempts -/

/-- An attempt starts the table of its call if it succeeds, and no other. -/
theorem started_perform (stage : Stage) (call : Call) (kind : TableKind) (path : String) :
    (stage.perform call).2.started.contains kind path = true ↔
      stage.started.contains kind path = true ∨ (stage.perform call).1.isOk = true ∧
        kind = call.kind ∧ Path.components path = Path.components call.path := by
  cases hperform : stage.perform call with
  | mk result after =>
    cases result with
    | error e =>
      obtain ⟨-, rfl⟩ := perform_eq_error_iff.mp hperform
      simp [Except.isOk, Except.toBool]
    | ok count =>
      obtain ⟨-, -, hstarted⟩ := perform_eq_ok_iff.mp hperform
      rw [hstarted, StartedTables.contains_insert]
      simp [Except.isOk, Except.toBool]

/-- The started tables after some attempts, each with the files that it finds. -/
def startedAfter (started : StartedTables) : List (FileSystem × Call) → StartedTables
  | [] => started
  | (files, call) :: attempts => startedAfter (perform ⟨files, started⟩ call).2.started attempts

def succeeding (started : StartedTables) : List (FileSystem × Call) → List Call
  | [] => []
  | (files, call) :: attempts =>
    (if (perform ⟨files, started⟩ call).1.isOk then [call] else []) ++
      succeeding (perform ⟨files, started⟩ call).2.started attempts

theorem contains_startedAfter {started : StartedTables} {kind : TableKind} {path : String}
    (attempts : List (FileSystem × Call)) :
    (startedAfter started attempts).contains kind path = true ↔
      started.contains kind path = true ∨ ∃ call ∈ succeeding started attempts,
        kind = call.kind ∧ Path.components path = Path.components call.path := by
  induction attempts generalizing started with
  | nil => simp [startedAfter, succeeding]
  | cons attempt attempts ih =>
    obtain ⟨files, call⟩ := attempt
    rw [startedAfter, succeeding, ih, started_perform, or_assoc]
    simp only [List.mem_append, or_and_right, exists_or]
    cases (perform ⟨files, started⟩ call).1.isOk <;> simp

/-- After a write that failed, a table is found as before it, whatever was attempted on others since. -/
theorem contains_startedAfter_failed (h : stage.perform call = (.error e, after)) {retry : Call}
    {attempts : List (FileSystem × Call)}
    (hothers : ∀ done ∈ succeeding after.started attempts, done.key ≠ call.key)
    (hretry : retry.key = call.key) :
    (startedAfter after.started attempts).contains retry.kind retry.path =
      stage.started.contains call.kind call.path := by
  obtain ⟨-, rfl⟩ := perform_eq_error_iff.mp h
  rw [Bool.eq_iff_iff, contains_startedAfter, StartedTables.contains_iff, StartedTables.contains_iff]
  have hnone : ¬ ∃ done ∈ succeeding after.started attempts, retry.kind = done.kind ∧
      Path.components retry.path = Path.components done.path := by
    rintro ⟨done, hdone, hsame⟩
    exact hothers done hdone ((StartedTables.keyOf_eq_iff.mpr hsame).symm.trans hretry)
  rw [or_iff_left hnone]
  show retry.key ∈ _ ↔ call.key ∈ _
  rw [hretry]

/-! ### The outcome of a write -/

/-- What stands in the file of a table after a write that found it started or not. -/
def content (files : FileSystem) (location : Location) (wasStarted : Bool) (call : Call) : Bytes :=
  if wasStarted then files.contentAt location ++ call.rowBytes
  else call.headerBytes ++ call.rowBytes

theorem perform_of_target? {location : Location} (h : stage.files.target? call.path = some location) :
    stage.perform call = (.ok (rows call.kind call.source call.classes).length,
      ⟨stage.files.put location (.file (content stage.files location (stage.goesOn call) call)),
        stage.started.insert call.kind call.path⟩) := by
  refine perform_eq_ok_iff.mpr ⟨?_, rfl, rfl⟩
  rw [FileSystem.write_of_target? h, mode, bytes, content]
  cases stage.goesOn call with
  | true => rfl
  | false => rw [bytes_first]; rfl

/-- A write fails where its destination cannot be opened or written, and only there: its records are
built whatever is in them. A write that fails starts no table, so that the next one to its table that
reaches a file, after any attempts of which none to this table succeeded, does what it should have
done: the first one replaces the content by the header and its rows, a later one adds rows only. A
write that succeeds starts its own table and no other. -/
theorem perform_outcome (stage : Stage) (call : Call) :
    (stage.write call).mapError some = outcome call.path (stage.perform call) ∧
    (∀ started, RecordBuffer.text call.style.format
        (records started call.kind call.source call.classes) =
      .ok (call.style.format.writeRecords (records started call.kind call.source call.classes))) ∧
    (∀ e, (stage.perform call).1 = .error e ↔ stage.FailsWith call e) ∧
    (∀ e, (stage.perform call).1 = .error e →
      (∀ kind path, (stage.perform call).2.started.contains kind path =
        stage.started.contains kind path) ∧
      ∀ (attempts : List (FileSystem × Call)) (files : FileSystem) (retry : Call)
        (location : Location),
        (∀ done ∈ succeeding (stage.perform call).2.started attempts, done.key ≠ call.key) →
        retry.key = call.key → files.target? retry.path = some location →
        perform ⟨files, startedAfter (stage.perform call).2.started attempts⟩ retry =
          (.ok (rows retry.kind retry.source retry.classes).length,
            ⟨files.put location (.file (content files location
                (stage.started.contains call.kind call.path) retry)),
              (startedAfter (stage.perform call).2.started attempts).insert retry.kind retry.path⟩)) ∧
    (∀ count, (stage.perform call).1 = .ok count → ∀ kind path,
      (stage.perform call).2.started.contains kind path = true ↔
        stage.started.contains kind path = true ∨
          kind = call.kind ∧ Path.components path = Path.components call.path) := by
  refine ⟨write_eq_perform stage call, fun started => RecordBuffer.text_records .., ?_, ?_, ?_⟩
  · intro e
    constructor
    · intro herror
      exact (perform_eq_error_iff.mp (Prod.ext herror rfl)).1
    · intro hfails
      rw [perform_eq_error_iff.mpr ⟨hfails, rfl⟩]
  · intro e herror
    have hperform : stage.perform call = (.error e, (stage.perform call).2) := Prod.ext herror rfl
    obtain ⟨-, hsame⟩ := perform_eq_error_iff.mp hperform
    refine ⟨fun kind path => by rw [hsame], ?_⟩
    intro attempts files retry location hothers hretry htarget
    have hfound : goesOn ⟨files, startedAfter (stage.perform call).2.started attempts⟩ retry =
        stage.started.contains call.kind call.path :=
      contains_startedAfter_failed hperform hothers hretry
    rw [← hfound]
    exact perform_of_target? htarget
  · intro count hcount kind path
    rw [started_perform, hcount]
    simp [Except.isOk, Except.toBool]

/-! ### A device without room -/

section Cramped

def cramped : FileSystem := ⟨[(["d"], .directory), (["d", "t.csv"], .fullDevice)], []⟩

/-- The same place when a file has come to stand there. -/
def roomy : FileSystem := ⟨[(["d"], .directory), (["d", "t.csv"], .file [0x78])], []⟩

def fieldsOf (path : String) : Call := ⟨⟨.csv, .utf8⟩, .fields, path, "a.jar", []⟩

theorem failsWith_cramped :
    (⟨cramped, .empty⟩ : Stage).FailsWith (fieldsOf "d/t.csv") (.writing .noSpace) :=
  ⟨.fullDevice, cramped, by rfl,
    FileSystem.writeAll_fullDevice cramped (bytes_first_ne_nil ⟨.csv, .utf8⟩ .fields "a.jar" [])⟩

/-- When the device has failed twice, the header is written over what a file in its place holds, under
another spelling of the path. -/
theorem perform_outcome_cramped :
    (perform ⟨cramped, .empty⟩ (fieldsOf "d/t.csv")).1 = .error (.writing .noSpace) ∧
    ∃ after, perform ⟨roomy, startedAfter (perform ⟨cramped, .empty⟩ (fieldsOf "d/t.csv")).2.started
        [(cramped, fieldsOf "d/t.csv")]⟩ (fieldsOf "d//t.csv") = (.ok 0, after) ∧
      after.files.get? ["d", "t.csv"] = some (.file (fieldsOf "d//t.csv").headerBytes) ∧
      after.started.contains .fields "d/t.csv" = true ∧
      after.started.contains .methods "d/t.csv" = false := by
  obtain ⟨-, -, hfails, hretries, -⟩ := perform_outcome ⟨cramped, .empty⟩ (fieldsOf "d/t.csv")
  have herror := (hfails _).mpr failsWith_cramped
  have hperform := perform_eq_error_iff.mpr ⟨failsWith_cramped, rfl⟩
  have hnone : succeeding (perform ⟨cramped, .empty⟩ (fieldsOf "d/t.csv")).2.started
      [(cramped, fieldsOf "d/t.csv")] = [] := by
    simp [hperform, succeeding, Except.isOk, Except.toBool]
  have htarget : roomy.target? "d//t.csv" = some ["d", "t.csv"] := by decide +kernel
  have hcontent : content roomy ["d", "t.csv"] false (fieldsOf "d//t.csv") =
      (fieldsOf "d//t.csv").headerBytes := List.append_nil _
  obtain ⟨-, hretry⟩ := hretries _ herror
  have hagain := hretry [(cramped, fieldsOf "d/t.csv")] roomy (fieldsOf "d//t.csv") ["d", "t.csv"]
    (by simp [hnone]) (by decide +kernel) htarget
  refine ⟨herror, _, hagain, ?_, ?_, ?_⟩
  · have hplace : (["d", "t.csv"] : Location) ≠ [] := by decide
    have hget := roomy.get?_put hplace
      (.file (content roomy ["d", "t.csv"] false (fieldsOf "d//t.csv"))) ["d", "t.csv"]
    exact hget.trans ((if_pos rfl).trans (congrArg (fun bytes => some (Entry.file bytes)) hcontent))
  · exact StartedTables.contains_insert.mpr (Or.inr ⟨rfl, by decide +kernel⟩)
  · simp only [hperform, startedAfter]
    decide +kernel

end Cramped

end Stage

end Table

end ClassReport
