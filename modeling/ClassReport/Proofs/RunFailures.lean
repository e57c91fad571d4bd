import ClassReport.Proofs.CutClassFiles
import ClassReport.Proofs.RunTables

/-!
# Runs that fail

A run that fails stops at one of its inputs. What it leaves is what a run over the inputs before
leaves, the tables of that input that could be written, and the log lines up to there
(`execute_stops`); nothing of the input is listed, and the inputs behind it are not looked at.
-/

namespace ClassReport.Run

/-! ### Steps that fail -/

variable {α β : Type} {before after : Session} {e : Failure}

def Fails (step : Run α) (before : Session) (e : Failure) (after : Session) : Prop :=
  step.run.run before = (.error e, after)

theorem Ends.not_fails {step : Run α} {value : α} {between : Session}
    (h : Ends step before value between) : ¬ Fails step before e after := by
  intro hfails
  rw [Ends] at h
  rw [Fails, h] at hfails
  cases (Prod.mk.inj hfails).1

theorem fails_bind {step : Run α} {next : α → Run β} :
    Fails (step >>= next) before e after ↔ Fails step before e after ∨
      ∃ value between, Ends step before value between ∧ Fails (next value) between e after := by
  rw [Fails, Fails, run_bind]
  constructor
  · intro h
    split at h
    · rename_i value between hstep
      exact Or.inr ⟨value, between, hstep, h⟩
    · rename_i cause between hstep
      rw [hstep]
      cases h
      exact Or.inl rfl
  · rintro (hstep | ⟨value, between, hstep, hnext⟩)
    · rw [hstep]
    · rw [Ends] at hstep
      rw [hstep]
      exact hnext

theorem fails_throw {cause : Failure} :
    Fails (throw cause : Run α) before e after ↔ e = cause ∧ after = before := by
  show ((Except.error cause, before) : Except Failure α × Session) = (.error e, after) ↔ _
  rw [Prod.mk.injEq, Except.error.injEq]
  exact ⟨fun h => ⟨h.1.symm, h.2.symm⟩, fun h => ⟨h.1.symm, h.2.symm⟩⟩

/-- Where the first step ends, it is the next one that fails. -/
theorem fails_bind_of_ends {step : Run α} {next : α → Run β} {value : α} {between : Session}
    (h : Ends step before value between) :
    Fails (step >>= next) before e after ↔ Fails (next value) between e after := by
  rw [fails_bind]
  constructor
  · rintro (hfails | ⟨other, session, hother, hfails⟩)
    · exact absurd hfails h.not_fails
    · rw [Ends] at h hother
      rw [h] at hother
      cases hother
      exact hfails
  · intro hfails
    exact Or.inr ⟨value, between, h, hfails⟩

theorem fails_get_bind {next : Session → Run β} :
    Fails (get >>= next) before e after ↔ Fails (next before) before e after :=
  fails_bind_of_ends (ends_get.mpr ⟨rfl, rfl⟩)

/-- A sequence fails at its first step that fails. -/
theorem fails_forM {steps : List α} {run : α → Run Unit} :
    Fails (steps.forM run) before e after ↔ ∃ done step rest between, steps = done ++ step :: rest ∧
      Ends (done.forM run) before () between ∧ Fails (run step) between e after := by
  -- The first step may change the session, so the induction is for every session to start from.
  induction steps generalizing before with
  | nil =>
    constructor
    · intro h
      exact absurd h (Ends.not_fails (ends_pure.mpr ⟨rfl, rfl⟩))
    · rintro ⟨done, step, rest, between, hnil, -⟩
      simp at hnil
  | cons step steps ih =>
    refine fails_bind.trans ?_
    constructor
    · rintro (hfirst | ⟨⟨⟩, between, hstep, hfails⟩)
      · exact ⟨[], step, steps, before, rfl, ends_pure.mpr ⟨rfl, rfl⟩, hfirst⟩
      · obtain ⟨done, other, rest, session, rfl, hdone, hother⟩ := ih.mp hfails
        have hends : Ends ((step :: done).forM run) before () session :=
          ends_bind.mpr ⟨(), between, hstep, hdone⟩
        exact ⟨step :: done, other, rest, session, rfl, hends, hother⟩
    · rintro ⟨done, other, rest, session, hsteps, hdone, hother⟩
      cases done with
      | nil =>
        obtain ⟨-, rfl⟩ := ends_pure.mp hdone
        cases hsteps
        exact Or.inl hother
      | cons first done =>
        cases hsteps
        obtain ⟨⟨⟩, between, hstep, hrest⟩ := ends_bind.mp hdone
        exact Or.inr ⟨(), between, hstep, ih.mpr ⟨done, other, rest, session, rfl, hrest, hother⟩⟩

theorem not_fails_prints {lines : List String} (hlimit : before.console.limit = none) :
    ¬ Fails (lines.forM print) before e after := by
  have hfits : Fits before.console lines := by
    rw [Fits, Console.writeAll_of_room hlimit]
  exact (ends_prints.mpr ⟨hfits, rfl⟩ : Ends (lines.forM print) before () _).not_fails

variable {introspector : Introspector} {settings : Settings} {input : String}
  {classes : List ClassRecord}

theorem fails_introspect :
    Fails (introspect introspector input) before e after ↔
      ∃ cause, (introspector before.files input).result = .error cause ∧ e = .scan input cause ∧
        after = { before with log := before.log ++ (introspector before.files input).log } := by
  rw [introspect, fails_get_bind, fails_bind_of_ends (ends_tell.mpr rfl : Ends _ _ () _)]
  cases (introspector before.files input).result with
  | ok found =>
    constructor
    · intro h
      exact absurd h (Ends.not_fails (ends_pure.mpr ⟨rfl, rfl⟩))
    · rintro ⟨cause, h, -⟩
      cases h
  | error cause =>
    refine fails_throw.trans ?_
    constructor
    · intro h
      exact ⟨cause, rfl, h⟩
    · rintro ⟨other, h, hrest⟩
      cases h
      exact hrest

theorem fails_writeTarget {target : TableTarget} :
    Fails (writeTarget settings input classes target) before e after ↔
      before.stage.write (callOf settings input classes target) = .error e ∧ after = before := by
  have hsame : before.stage.write (callOf settings input classes target) =
      Table.write before.files before.started settings.style target.kind target.path input classes :=
    rfl
  rw [writeTarget, fails_get_bind, hsame]
  cases Table.write before.files before.started settings.style target.kind target.path input
      classes with
  | error cause =>
    refine fails_throw.trans ?_
    rw [Except.error.injEq, eq_comm]
  | ok written =>
    constructor
    · intro h
      have hset : Ends (set { before with files := written.files, started := written.started })
          before () _ := ends_set.mpr rfl
      rw [fails_bind_of_ends hset] at h
      exact absurd h (ends_inform.mpr rfl : Ends _ _ () _).not_fails
    · rintro ⟨h, -⟩
      cases h

/-! ### Inputs that are not done -/

def writtenLine (settings : Settings) (target : TableTarget) : LogLine :=
  ⟨.info, writtenMessage settings.style target⟩

/-- A session in which some tables of an input have been written. -/
def wrote (settings : Settings) (input : String) (classes : List ClassRecord)
    (done : List TableTarget) (before : Session) : Session :=
  let stage := before.stage.run (done.map (callOf settings input classes))
  { before with
    files := stage.files
    started := stage.started
    log := before.log ++ done.map (writtenLine settings) }

theorem wrote_cons {target : TableTarget} {written : Table.Written} (done : List TableTarget)
    (h : before.stage.write (callOf settings input classes target) = .ok written) :
    wrote settings input classes (target :: done) before = wrote settings input classes done
      { before with
        files := written.files
        started := written.started
        log := before.log ++ [writtenLine settings target] } := by
  have hcall : before.stage.call (callOf settings input classes target) =
      ⟨written.files, written.started⟩ := by
    rw [Table.Stage.call, h]
  have hrun (calls : List Table.Call) :
      before.stage.run (callOf settings input classes target :: calls) =
        (⟨written.files, written.started⟩ : Table.Stage).run calls := by
    show (before.stage.call _).run calls = _
    rw [hcall]
  simp only [wrote, List.map_cons, hrun, List.append_assoc, List.singleton_append]
  rfl

theorem ends_writeTargets_iff {done : List TableTarget} :
    Ends (done.forM (writeTarget settings input classes)) before () after ↔
      before.stage.Accepts (done.map (callOf settings input classes)) ∧
        after = wrote settings input classes done before := by
  induction done generalizing before with
  | nil =>
    refine ends_pure.trans ?_
    rw [wrote, List.map_nil, List.map_nil, List.append_nil]
    exact ⟨fun h => ⟨trivial, h.2⟩, fun h => ⟨rfl, h.2⟩⟩
  | cons target done ih =>
    refine ends_bind.trans ?_
    constructor
    · rintro ⟨⟨⟩, between, hone, hrest⟩
      obtain ⟨⟨hwrites, -⟩, hstage, -⟩ := stage_of_ends_writeTarget hone
      obtain ⟨haccepts, rfl⟩ := ih.mp hrest
      rw [hstage] at haccepts
      obtain ⟨written, hwrite, rfl⟩ := ends_writeTarget.mp hone
      exact ⟨⟨hwrites, haccepts⟩, (wrote_cons done hwrite).symm⟩
    · rintro ⟨⟨⟨written, hwrite⟩, haccepts⟩, rfl⟩
      have hone : Ends (writeTarget settings input classes target) before () _ :=
        ends_writeTarget.mpr ⟨written, hwrite, rfl⟩
      rw [← (stage_of_ends_writeTarget hone).2.1] at haccepts
      exact ⟨(), _, hone, ih.mpr ⟨haccepts, wrote_cons done hwrite⟩⟩

theorem fails_writeTargets {targets : List TableTarget} :
    Fails (targets.forM (writeTarget settings input classes)) before e after ↔
      ∃ done target rest, targets = done ++ target :: rest ∧
        before.stage.Accepts (done.map (callOf settings input classes)) ∧
        (before.stage.run (done.map (callOf settings input classes))).write
          (callOf settings input classes target) = .error e ∧
        after = wrote settings input classes done before := by
  rw [fails_forM]
  constructor
  · rintro ⟨done, target, rest, between, rfl, hdone, hfails⟩
    obtain ⟨haccepts, rfl⟩ := ends_writeTargets_iff.mp hdone
    obtain ⟨hwrite, rfl⟩ := fails_writeTarget.mp hfails
    exact ⟨done, target, rest, rfl, haccepts, hwrite, rfl⟩
  · rintro ⟨done, target, rest, rfl, haccepts, hwrite, rfl⟩
    exact ⟨done, target, rest, _, rfl, ends_writeTargets_iff.mpr ⟨haccepts, rfl⟩,
      fails_writeTarget.mpr ⟨hwrite, rfl⟩⟩

def foundLine (classes : List ClassRecord) : LogLine :=
  ⟨.info, s!"Found {classes.length} classes:"⟩

theorem fails_report (hlimit : before.console.limit = none) :
    Fails (report settings input classes) before e after ↔
      ∃ done target rest, settings.targets = done ++ target :: rest ∧
        before.stage.Accepts (done.map (callOf settings input classes)) ∧
        (before.stage.run (done.map (callOf settings input classes))).write
          (callOf settings input classes target) = .error e ∧
        after = wrote settings input classes done
          { before with log := before.log ++ [foundLine classes] } := by
  rw [report, fails_bind_of_ends (ends_inform.mpr rfl : Ends _ _ () _), fails_bind]
  constructor
  · rintro (hfails | ⟨⟨⟩, between, hwritten, hfails⟩)
    · exact fails_writeTargets.mp hfails
    · obtain ⟨-, rfl⟩ := ends_writeTargets_iff.mp hwritten
      cases hquiet : settings.isQuiet with
      | true =>
        rw [hquiet] at hfails
        exact absurd hfails (Ends.not_fails (ends_pure.mpr ⟨rfl, rfl⟩))
      | false =>
        rw [hquiet] at hfails
        exact absurd hfails (not_fails_prints hlimit)
  · intro h
    exact Or.inl (fails_writeTargets.mpr h)

def analyzingLine (files : FileSystem) (input : String) : LogLine :=
  ⟨.info, "=== Analyzing " ++ inputLabel files input ++ " : " ++ input ++ " ==="⟩

/-- How a run stops at an input, from the session in which the inputs before it are done. -/
inductive StopsAt (introspector : Introspector) (settings : Settings) (input : String)
    (reached : Session) : Failure → Session → Prop
  /-- The classes of the input are not found out. -/
  | scan {cause : Failure} (hresult : (introspector reached.files input).result = .error cause) :
      StopsAt introspector settings input reached (.scan input cause)
        { reached with log := reached.log ++
            analyzingLine reached.files input :: (introspector reached.files input).log }
  /-- A table cannot be written; those of the targets before it are. -/
  | write {discovered : List ClassRecord} {done rest : List TableTarget} {target : TableTarget}
      {e : Failure} (hresult : (introspector reached.files input).result = .ok discovered)
      (hne : discovered ≠ []) (htargets : settings.targets = done ++ target :: rest)
      (haccepts : reached.stage.Accepts
        (done.map (callOf settings input (select settings discovered))))
      (hwrite : (reached.stage.run
          (done.map (callOf settings input (select settings discovered)))).write
        (callOf settings input (select settings discovered) target) = .error e) :
      StopsAt introspector settings input reached e
        (wrote settings input (select settings discovered) done
          { reached with log := reached.log ++
              (analyzingLine reached.files input :: (introspector reached.files input).log ++
                [foundLine (select settings discovered)]) })

theorem fails_processInput (hlimit : before.console.limit = none) :
    Fails (processInput introspector settings input) before e after ↔
      StopsAt introspector settings input before e after := by
  have hinform : Ends (inform ("=== Analyzing " ++ inputLabel before.files input ++ " : " ++ input ++
      " ===")) before () { before with log := before.log ++ [analyzingLine before.files input] } :=
    ends_inform.mpr rfl
  -- Only looking for classes and reporting them can fail; the two ways to stop are these two.
  rw [processInput, fails_get_bind, fails_bind_of_ends hinform, fails_bind]
  simp only [fails_introspect, ends_introspect, List.append_assoc, List.singleton_append]
  constructor
  · rintro (⟨cause, hresult, rfl, rfl⟩ | ⟨discovered, between, ⟨hresult, rfl⟩, hfails⟩)
    · exact .scan hresult
    · cases hempty : discovered.isEmpty with
      | true =>
        rw [hempty, if_pos rfl] at hfails
        exact absurd hfails (ends_inform.mpr rfl : Ends _ _ () _).not_fails
      | false =>
        rw [hempty, if_neg (by decide)] at hfails
        obtain ⟨done, target, rest, htargets, haccepts, hwrite, rfl⟩ :=
          (fails_report (by exact hlimit)).mp hfails
        rw [List.append_assoc]
        exact .write hresult (List.isEmpty_eq_false_iff.mp hempty) htargets haccepts hwrite
  · rintro (hresult | ⟨hresult, hne, htargets, haccepts, hwrite⟩)
    · exact Or.inl ⟨_, hresult, rfl, rfl⟩
    · refine Or.inr ⟨_, _, ⟨hresult, rfl⟩, ?_⟩
      rw [List.isEmpty_eq_false_iff.mpr hne, if_neg (by decide)]
      refine (fails_report (by exact hlimit)).mpr ⟨_, _, _, htargets, haccepts, hwrite, ?_⟩
      rw [List.append_assoc]

/-! ### The law -/

theorem limit_of_ends_processInput {u : Unit} (hlimit : before.console.limit = none)
    (h : Ends (processInput introspector settings input) before u after) :
    after.console.limit = none := by
  cases hresult : (introspector before.files input).result with
  | error cause => exact absurd ((fails_processInput hlimit).mpr (.scan hresult)) h.not_fails
  | ok discovered => exact (ends_processInput hresult h).2.2.2.trans hlimit

theorem limit_of_ends_processInputs {inputs : List String} {u : Unit}
    (hlimit : before.console.limit = none)
    (h : Ends (inputs.forM (processInput introspector settings)) before u after) :
    after.console.limit = none := by
  induction inputs generalizing before with
  | nil =>
    obtain ⟨-, rfl⟩ := ends_pure.mp h
    exact hlimit
  | cons input inputs ih =>
    obtain ⟨_, between, hone, hrest⟩ := ends_bind.mp h
    exact ih (limit_of_ends_processInput hlimit hone) hrest

variable {files : FileSystem}

/-- A run fails at the first of its inputs that fails. -/
theorem execute_eq_error_iff :
    execute introspector settings (.start files none) = (.error e, after) ↔
      ∃ done input later reached, settings.inputs = done ++ input :: later ∧
        execute introspector { settings with inputs := done } (.start files none) =
          (.ok (), reached) ∧
        StopsAt introspector settings input reached e after := by
  have hlimit : (Session.start files none).console.limit = none := rfl
  refine fails_forM.trans ?_
  constructor
  · rintro ⟨done, input, later, reached, hinputs, hdone, hfails⟩
    refine ⟨done, input, later, reached, hinputs, hdone, ?_⟩
    exact (fails_processInput (limit_of_ends_processInputs hlimit hdone)).mp hfails
  · rintro ⟨done, input, later, reached, hinputs, hdone, hstops⟩
    refine ⟨done, input, later, reached, hinputs, hdone, ?_⟩
    exact (fails_processInput (limit_of_ends_processInputs hlimit hdone)).mpr hstops

theorem processInput_congr {other : Introspector} (settings : Settings)
    (hsame : ∀ seen, other seen input = introspector seen input) :
    processInput other settings input = processInput introspector settings input := by
  have hintrospect : introspect other input = introspect introspector input := by
    simp only [introspect, hsame]
  rw [processInput, hintrospect, processInput]

theorem forM_congr {steps : List α} {run other : α → Run Unit}
    (h : ∀ step ∈ steps, other step = run step) : steps.forM other = steps.forM run := by
  induction steps with
  | nil => rfl
  | cons step steps ih =>
    have hrest := ih fun next hnext => h next (List.mem_cons_of_mem _ hnext)
    show (other step >>= fun _ => steps.forM other) = (run step >>= fun _ => steps.forM run)
    rw [h step List.mem_cons_self, hrest]

/-- Neither what else an introspector would find nor the inputs behind change where a run stops. -/
theorem execute_eq_error_of_agree {other : Introspector} {done others : List String}
    {reached : Session}
    (hsame : ∀ seen, ∀ name ∈ done ++ [input], other seen name = introspector seen name)
    (hdone : execute introspector { settings with inputs := done } (.start files none) =
      (.ok (), reached))
    (hstops : StopsAt introspector settings input reached e after) :
    execute other { settings with inputs := done ++ input :: others } (.start files none) =
      (.error e, after) := by
  have hlimit : reached.console.limit = none := limit_of_ends_processInputs rfl hdone
  -- The settings differ in their inputs only, and what is done for one input does not read these.
  have hprocess : ∀ name ∈ done ++ [input],
      processInput other { settings with inputs := done ++ input :: others } name =
        processInput introspector settings name :=
    fun name hname => processInput_congr settings fun seen => hsame seen name hname
  have hforM := forM_congr fun name hname => hprocess name (List.mem_append_left _ hname)
  refine fails_forM.mpr ⟨done, input, others, reached, rfl, ?_, ?_⟩
  · rw [hforM]
    exact hdone
  · rw [hprocess input (by simp)]
    exact (fails_processInput hlimit).mpr hstops

/-- A write, whether it succeeds or not, changes nothing but the file that its path leads to. -/
theorem get?_call (stage : Table.Stage) (call : Table.Call) {location : Location}
    (h : stage.files.target? call.path ≠ some location) :
    (stage.call call).files.get? location = stage.files.get? location := by
  rw [Table.Stage.call]
  cases hwrite : stage.write call with
  | error e => rfl
  | ok written =>
    show written.files.get? location = stage.files.get? location
    rcases Table.write_eq_ok hwrite with ⟨-, -, ⟨place, htarget, hput⟩ | ⟨-, -, hsame⟩⟩
    · have hne : location ≠ place := by
        rintro rfl
        exact h htarget
      rw [hput, (FileSystem.holds_of_target? htarget).get?_put, if_neg hne]
    · rw [hsame]

theorem write_eq_error {stage : Table.Stage} {call : Table.Call} (h : stage.write call = .error e) :
    ∃ cause, e = .openOutput call.path cause ∨ e = .writeOutput call.path cause := by
  rw [Table.Stage.write, Table.write] at h
  split at h
  · cases h
    exact ⟨_, Or.inl rfl⟩
  · cases h
    exact ⟨_, Or.inr rfl⟩
  · cases h

theorem StopsAt.messages {reached : Session}
    (h : StopsAt introspector settings input reached e after) :
    (∃ cause, e = .scan input cause ∧
        e.messages = ("Failed to scan " ++ input) :: cause.messages) ∨
      ∃ target ∈ settings.targets, ∃ cause,
        e = .openOutput target.path cause ∨ e = .writeOutput target.path cause := by
  cases h with
  | scan hresult => exact Or.inl ⟨_, rfl, rfl⟩
  | write hresult hne htargets haccepts hwrite =>
    exact Or.inr ⟨_, by simp [htargets], write_eq_error hwrite⟩

/-- A run that fails stops at one of its inputs, from what a run over the inputs before it leaves.
Whether it fails there does not depend on the inputs behind, and no write touches other files. -/
theorem execute_stops (h : execute introspector settings (.start files none) = (.error e, after)) :
    ∃ done input later reached, settings.inputs = done ++ input :: later ∧
      execute introspector { settings with inputs := done } (.start files none) =
        (.ok (), reached) ∧
      StopsAt introspector settings input reached e after ∧
      ((∃ cause, e = .scan input cause ∧
          e.messages = ("Failed to scan " ++ input) :: cause.messages) ∨
        ∃ target ∈ settings.targets, ∃ cause,
          e = .openOutput target.path cause ∨ e = .writeOutput target.path cause) ∧
      (∀ (other : Introspector) (others : List String),
        (∀ seen, ∀ name ∈ done ++ [input], other seen name = introspector seen name) →
        execute other { settings with inputs := done ++ input :: others } (.start files none) =
          (.error e, after)) ∧
      ∀ (stage : Table.Stage) (call : Table.Call) (location : Location),
        stage.files.target? call.path ≠ some location →
        (stage.call call).files.get? location = stage.files.get? location := by
  obtain ⟨done, input, later, reached, hinputs, hdone, hstops⟩ := execute_eq_error_iff.mp h
  refine ⟨done, input, later, reached, hinputs, hdone, hstops, hstops.messages, ?_, ?_⟩
  · intro other others hsame
    exact execute_eq_error_of_agree hsame hdone hstops
  · intro stage call location
    exact get?_call stage call

/-! ### A class file that cannot be read -/

section Damaged
open ClassFile (bare bareBytes)

/-- A directory with a class file that cannot be read and one that can. -/
def damaged : FileSystem :=
  ⟨[(["d"], .directory), (["d", "A.class"], .file [0]), (["d", "B.class"], .file bareBytes),
    (["out"], .directory)], []⟩

-- The table cannot be opened because a directory stands at its path.
def intoDirectory : Settings where
  inputs := ["d"]
  isVerbose := false
  isQuiet := false
  packages := []
  targets := [⟨.methods, "out"⟩]
  style := .standard

def complaint : LogLine :=
  ⟨.debug, "Skipping unreadable class d/A.class: unexpected end of class file"⟩

theorem walk_damaged : damaged.walk "d" = .ok ["d/A.class", "d/B.class"] := by
  have hfind : damaged.find "d" = .ok (["d"], .directory) := by rfl
  have hnames : damaged.namesIn ["d"] = ["A.class", "B.class"] := by
    have hentries : damaged.entries.filterMap (FileSystem.nameIn? ["d"]) =
        ["A.class", "B.class"] := by decide
    rw [FileSystem.namesIn, hentries]
    exact List.mergeSort_of_pairwise (by decide)
  rw [FileSystem.walk, hfind, if_neg (by decide)]
  show (damaged.namesIn ["d"]).flatMapM _ = _
  rw [hnames]
  rfl

theorem discover_damaged : discover damaged "d" = ⟨.ok [bare.toRecord], [complaint]⟩ := by
  have hdirectory : damaged.isDirectory "d" = true := by decide
  have hbad : ClassSource.ofPath damaged "d/A.class" = .ok ⟨"d/A.class", [0]⟩ := by rfl
  have hgood : ClassSource.ofPath damaged "d/B.class" = .ok ⟨"d/B.class", bareBytes⟩ := by rfl
  have hsources : ClassSource.ofDirectory damaged "d" =
      .ok [⟨"d/A.class", [0]⟩, ⟨"d/B.class", bareBytes⟩] := by
    have hfilter : (["d/A.class", "d/B.class"].filter Path.isClassFile).filter
        (fun p => !Path.isDescriptorClass p) = ["d/A.class", "d/B.class"] := by decide
    rw [ClassSource.ofDirectory, ClassSource.classPaths, walk_damaged]
    show (List.mapM _ (List.filter _ (List.filter _ _)) : Except Failure _) = _
    rw [hfilter]
    simp only [List.mapM_cons, hbad, hgood]
    rfl
  have hfault : ClassFile.parse [0] = .error .unexpectedEnd := by rfl
  rw [discover, ClassSource.ofInput?, if_pos hdirectory, hsources]
  simp [Except.map, ClassSource.record?, ClassSource.complaint?, hfault, ClassFile.parse_bareBytes]
  rfl

def afterDamaged : Session :=
  { Session.start damaged none with
    log := [analyzingLine damaged "d", complaint, foundLine [bare.toRecord]] }

theorem execute_damaged : execute discover intoDirectory (.start damaged none) =
    (.error (.openOutput "out" .isDirectory), afterDamaged) := by
  have hfound : discover (Session.start damaged none).files "d" =
      ⟨.ok [bare.toRecord], [complaint]⟩ := discover_damaged
  have hselect : select intoDirectory [bare.toRecord] = [bare.toRecord] := by
    rw [select, List.filter_cons_of_pos (by decide), List.filter_nil, List.mergeSort_singleton]
  have htargets : intoDirectory.targets = [] ++ ⟨.methods, "out"⟩ :: [] := rfl
  have hwrite : (Session.start damaged none).stage.write
      (callOf intoDirectory "d" (select intoDirectory [bare.toRecord]) ⟨.methods, "out"⟩) =
        .error (.openOutput "out" .isDirectory) := by rfl
  have hresult : (discover (Session.start damaged none).files "d").result =
      .ok [bare.toRecord] := by rw [hfound]
  have hstops := StopsAt.write hresult (List.cons_ne_nil _ _) htargets trivial hwrite
  rw [hselect, hfound] at hstops
  exact execute_eq_error_iff.mpr ⟨[], "d", [], .start damaged none, rfl, rfl, hstops⟩

theorem inputs_intoDirectory {done later : List String}
    (h : intoDirectory.inputs = done ++ input :: later) : done = [] ∧ input = "d" := by
  cases done with
  | nil =>
    cases h
    exact ⟨rfl, rfl⟩
  | cons first done =>
    have hlength := congrArg List.length h
    simp [intoDirectory] at hlength

/-- The run stops in the same way if there are more inputs and nothing is found out about these. -/
theorem execute_stops_damaged :
    StopsAt discover intoDirectory "d" (.start damaged none) (.openOutput "out" .isDirectory)
      afterDamaged ∧
    execute (fun files name => if name = "d" then discover files name else ⟨.error .consoleFull, []⟩)
      { intoDirectory with inputs := ["d", "x.jar"] } (.start damaged none) =
        (.error (.openOutput "out" .isDirectory), afterDamaged) := by
  obtain ⟨done, input, later, reached, hinputs, hdone, hstops, -, hothers, -⟩ :=
    execute_stops execute_damaged
  obtain ⟨rfl, rfl⟩ := inputs_intoDirectory hinputs
  cases hdone
  refine ⟨hstops, hothers _ ["x.jar"] ?_⟩
  intro seen name hname
  rw [List.nil_append, List.mem_singleton] at hname
  rw [if_pos hname]

/-- A run that fails may log more than the input that it stops at and the tables that it wrote:
what it logged while it looked for classes stays. -/
theorem execute_damaged_logs_more :
    execute discover intoDirectory (.start damaged none) =
      (.error (.openOutput "out" .isDirectory), afterDamaged) ∧
    ¬ ∃ done input later reached, intoDirectory.inputs = done ++ input :: later ∧
      execute discover { intoDirectory with inputs := done } (.start damaged none) =
        (.ok (), reached) ∧
      (afterDamaged.log = reached.log ++ [analyzingLine reached.files input] ∨
        ∃ (classes : List ClassRecord) (targets : List TableTarget),
          afterDamaged.log = reached.log ++ analyzingLine reached.files input ::
            foundLine classes :: targets.map (writtenLine intoDirectory)) := by
  refine ⟨execute_damaged, ?_⟩
  rintro ⟨done, input, later, reached, hinputs, hdone, hlog⟩
  obtain ⟨rfl, rfl⟩ := inputs_intoDirectory hinputs
  cases hdone
  rcases hlog with hlog | ⟨classes, targets, hlog⟩
  · cases hlog
  · have hsecond : complaint = foundLine classes := (List.cons.inj (List.cons.inj hlog).2).1
    cases congrArg LogLine.level hsecond

end Damaged

end ClassReport.Run
