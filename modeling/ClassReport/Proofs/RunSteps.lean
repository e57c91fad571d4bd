import ClassReport.Proofs.TableHeaders
import ClassReport.Run

/-!
# The steps of a run

What each step of a run does to the session when it does not fail, and when it does not fail. To the
tables an input is a sequence of writes, one for each target (`ends_processInput`), or nothing if it has no
classes. To the console a listing is written line after line (`run_prints`), which comes to the same as
writing it at once (`Console.Sound.writeAll_eq`).
-/

namespace ClassReport

namespace Table.Stage

/-- Every write of the sequence succeeds. -/
def Accepts : Stage → List Call → Prop
  | _, [] => True
  | stage, call :: calls => (∃ written, stage.write call = .ok written) ∧ (stage.call call).Accepts calls

theorem accepts_append {stage : Stage} {calls more : List Call} :
    stage.Accepts (calls ++ more) ↔ stage.Accepts calls ∧ (stage.run calls).Accepts more := by
  induction calls generalizing stage with
  | nil =>
    show stage.Accepts more ↔ True ∧ stage.Accepts more
    rw [true_and]
  | cons call calls ih =>
    show (_ ∧ (stage.call call).Accepts (calls ++ more)) ↔
      (_ ∧ (stage.call call).Accepts calls) ∧ ((stage.call call).run calls).Accepts more
    rw [ih, and_assoc]

theorem run_append (stage : Stage) (calls more : List Call) :
    stage.run (calls ++ more) = (stage.run calls).run more := List.foldl_append

theorem Accepts.map_call {stage : Stage} {calls : List Call} (h : stage.Accepts calls) :
    (stage.successes calls).map Success.call = calls := by
  induction calls generalizing stage with
  | nil => rfl
  | cons call calls ih =>
    obtain ⟨⟨written, hwrite⟩, hrest⟩ := h
    have hone : stage.success call =
        [⟨call, !stage.started.contains call.kind call.path, stage.files.target? call.path⟩] := by
      rw [success, hwrite]
    rw [successes, hone, List.singleton_append, List.map_cons, ih hrest]

end Table.Stage

namespace Console

variable {console : Console}

/-! ### Writing in parts -/

/-- Writes one part after another, up to the first that fails. -/
def writeAll (console : Console) : List Bytes → Console × Bool
  | [] => (console, true)
  | bytes :: parts =>
    if (console.write bytes).2 then (console.write bytes).1.writeAll parts
    else ((console.write bytes).1, false)

theorem limit_write (console : Console) (bytes : Bytes) :
    (console.write bytes).1.limit = console.limit := by
  rw [write]
  split
  · rfl
  · rfl

theorem write_append (console : Console) (bytes more : Bytes) :
    console.write (bytes ++ more) =
      if (console.write bytes).2 then (console.write bytes).1.write more
      else ((console.write bytes).1, false) := by
  obtain ⟨limit, written⟩ := console
  cases limit with
  | none => simp only [write, if_true, List.append_assoc]
  | some most =>
    simp only [write]
    by_cases hfits : (written ++ bytes).length ≤ most
    · simp only [hfits, decide_true, if_true, List.take_of_length_le hfits, List.append_assoc]
    · have hover : ¬ (written ++ (bytes ++ more)).length ≤ most := by
        simp only [List.length_append] at hfits ⊢
        omega
      have htake : (written ++ (bytes ++ more)).take most = (written ++ bytes).take most := by
        rw [← List.append_assoc]
        exact List.take_append_of_le_length (by omega)
      simp only [hfits, hover, htake, decide_false, Bool.false_eq_true, if_false]

/-- Into how many parts it is cut makes no difference to what is written. -/
theorem writeAll_cons (console : Console) (bytes : Bytes) (parts : List Bytes) :
    console.writeAll (bytes :: parts) = console.write (bytes ++ parts.flatten) := by
  induction parts generalizing console bytes with
  | nil =>
    rw [writeAll, List.flatten_nil, List.append_nil]
    rcases console.write bytes with ⟨after, done⟩
    cases done with
    | true => rfl
    | false => rfl
  | cons other parts ih => rw [writeAll, ih, List.flatten_cons, write_append console bytes]

theorem limit_writeAll (console : Console) (parts : List Bytes) :
    (console.writeAll parts).1.limit = console.limit := by
  cases parts with
  | nil => rfl
  | cons bytes parts => rw [writeAll_cons, limit_write]

/-- No more is written than there is room for. -/
def Sound (console : Console) : Prop := ∀ most, console.limit = some most → console.written.length ≤ most

theorem sound_of_room (h : console.limit = none) : console.Sound := by
  intro most hmost
  rw [h] at hmost
  cases hmost

theorem Sound.write_nil (h : console.Sound) : console.write [] = (console, true) := by
  obtain ⟨limit, written⟩ := console
  cases limit with
  | none => simp only [write, List.append_nil]
  | some most =>
    have hfits : written.length ≤ most := h most rfl
    simp only [write, List.append_nil, List.take_of_length_le hfits, hfits, decide_true]

theorem Sound.writeAll_eq (h : console.Sound) (parts : List Bytes) :
    console.writeAll parts = console.write parts.flatten := by
  cases parts with
  | nil => exact h.write_nil.symm
  | cons bytes parts => exact console.writeAll_cons bytes parts

theorem writeAll_of_room (h : console.limit = none) (parts : List Bytes) :
    console.writeAll parts = (⟨none, console.written ++ parts.flatten⟩, true) := by
  rw [(sound_of_room h).writeAll_eq, write, h]

end Console

/-- The tables and their files as a session has them. -/
def Session.stage (session : Session) : Table.Stage := ⟨session.files, session.started⟩

namespace Run

variable {α β : Type} {before after : Session}

/-- A step that does not fail. -/
def Ends (step : Run α) (before : Session) (value : α) (after : Session) : Prop :=
  step.run.run before = (.ok value, after)

theorem ends_pure {value result : α} :
    Ends (pure value) before result after ↔ result = value ∧ after = before := by
  show ((Except.ok value, before) : Except Failure α × Session) = (.ok result, after) ↔ _
  rw [Prod.mk.injEq, Except.ok.injEq]
  exact ⟨fun h => ⟨h.1.symm, h.2.symm⟩, fun h => ⟨h.1.symm, h.2.symm⟩⟩

/-- The second step starts where the first one ends, and not at all if that fails. -/
theorem run_bind (step : Run α) (next : α → Run β) (before : Session) :
    (step >>= next).run.run before =
      match step.run.run before with
      | (.ok value, between) => (next value).run.run between
      | (.error e, between) => (.error e, between) := by
  show (ExceptT.bindCont next (step.run.run before).1).run (step.run.run before).2 = _
  rcases step.run.run before with ⟨value | e, between⟩
  · rfl
  · rfl

theorem ends_bind {step : Run α} {next : α → Run β} {result : β} :
    Ends (step >>= next) before result after ↔
      ∃ value between, Ends step before value between ∧ Ends (next value) between result after := by
  rw [Ends, run_bind]
  constructor
  · intro h
    split at h
    · rename_i value between hstep
      exact ⟨value, between, hstep, h⟩
    · cases h
  · rintro ⟨value, between, hstep, hnext⟩
    rw [Ends] at hstep
    rw [hstep]
    exact hnext

theorem ends_get {value : Session} :
    Ends (get : Run Session) before value after ↔ value = before ∧ after = before := by
  show ((Except.ok before, before) : Except Failure Session × Session) = (.ok value, after) ↔ _
  rw [Prod.mk.injEq, Except.ok.injEq]
  exact ⟨fun h => ⟨h.1.symm, h.2.symm⟩, fun h => ⟨h.1.symm, h.2.symm⟩⟩

theorem ends_set {session : Session} {u : Unit} :
    Ends (set session : Run Unit) before u after ↔ after = session := by
  show ((Except.ok (), session) : Except Failure Unit × Session) = (.ok u, after) ↔ _
  rw [Prod.mk.injEq]
  exact ⟨fun h => h.2.symm, fun h => ⟨rfl, h.symm⟩⟩

theorem not_ends_throw {e : Failure} {value : α} : ¬ Ends (throw e : Run α) before value after := by
  intro h
  cases (Prod.mk.inj h).1

/-! ### Single steps -/

theorem ends_tell {lines : Log} {u : Unit} :
    Ends (tell lines) before u after ↔ after = { before with log := before.log ++ lines } := by
  show ((Except.ok (), { before with log := before.log ++ lines }) :
    Except Failure Unit × Session) = (.ok u, after) ↔ _
  rw [Prod.mk.injEq]
  exact ⟨fun h => h.2.symm, fun h => ⟨rfl, h.symm⟩⟩

theorem ends_inform {message : String} {u : Unit} :
    Ends (inform message) before u after ↔
      after = { before with log := before.log ++ [⟨.info, message⟩] } := ends_tell

theorem ends_get_bind {next : Session → Run β} {result : β} :
    Ends (get >>= next) before result after ↔ Ends (next before) before result after := by
  rw [ends_bind]
  constructor
  · rintro ⟨session, between, hget, h⟩
    rw [ends_get] at hget
    rw [hget.1, hget.2] at h
    exact h
  · intro h
    exact ⟨before, before, ends_get.mpr ⟨rfl, rfl⟩, h⟩

theorem run_print (line : String) (session : Session) :
    (print line).run.run session =
      (if (session.console.write (utf8Bytes line)).2 then .ok () else .error .consoleFull,
        { session with console := (session.console.write (utf8Bytes line)).1 }) := by
  have hprint : (print line).run.run session =
      ((if !(session.console.write (utf8Bytes line)).2 then throw .consoleFull
        else pure () : Run Unit)).run.run
        { session with console := (session.console.write (utf8Bytes line)).1 } := rfl
  rw [hprint]
  cases (session.console.write (utf8Bytes line)).2 with
  | true => rfl
  | false => rfl

/-- Lines are written one after another, up to the first that fails. -/
theorem run_prints (lines : List String) (session : Session) :
    (lines.forM print).run.run session =
      (if (session.console.writeAll (lines.map utf8Bytes)).2 then .ok () else .error .consoleFull,
        { session with console := (session.console.writeAll (lines.map utf8Bytes)).1 }) := by
  induction lines generalizing session with
  | nil => rfl
  | cons line lines ih =>
    have hcons : ((line :: lines).forM print).run.run session =
        (print line >>= fun _ => lines.forM print).run.run session := rfl
    rw [hcons, run_bind, run_print, List.map_cons, Console.writeAll]
    cases (session.console.write (utf8Bytes line)).2 with
    | true => exact ih _
    | false => rfl

def Fits (console : Console) (lines : List String) : Prop :=
  (console.writeAll (lines.map utf8Bytes)).2 = true

theorem ends_prints {lines : List String} {u : Unit} :
    Ends (lines.forM print) before u after ↔
      Fits before.console lines ∧
        after = { before with console := (before.console.writeAll (lines.map utf8Bytes)).1 } := by
  rw [Ends, run_prints, Fits, Prod.mk.injEq]
  refine and_congr ?_ eq_comm
  cases (before.console.writeAll (lines.map utf8Bytes)).2 with
  | true => exact ⟨fun _ => rfl, fun _ => rfl⟩
  | false => exact iff_of_false (fun h => nomatch h) Bool.false_ne_true

theorem ends_introspect {introspector : Introspector} {input : String}
    {classes : List ClassRecord} :
    Ends (introspect introspector input) before classes after ↔
      (introspector before.files input).result = .ok classes ∧
        after = { before with log := before.log ++ (introspector before.files input).log } := by
  rw [introspect, ends_get_bind, ends_bind]
  constructor
  · rintro ⟨_, told, htell, h⟩
    rw [ends_tell] at htell
    cases hresult : (introspector before.files input).result with
    | ok found =>
      rw [hresult, ends_pure] at h
      exact ⟨by rw [h.1], h.2.trans htell⟩
    | error e =>
      rw [hresult] at h
      exact absurd h not_ends_throw
  · rintro ⟨hresult, hafter⟩
    refine ⟨(), _, ends_tell.mpr rfl, ?_⟩
    rw [hresult]
    exact ends_pure.mpr ⟨rfl, hafter⟩

/-- The write that an input makes to a target. -/
def callOf (settings : Settings) (input : String) (classes : List ClassRecord)
    (target : TableTarget) : Table.Call :=
  ⟨settings.style, target.kind, target.path, input, classes⟩

variable {settings : Settings} {input : String} {classes : List ClassRecord}

theorem ends_writeTarget {target : TableTarget} {u : Unit} :
    Ends (writeTarget settings input classes target) before u after ↔
      ∃ written, before.stage.write (callOf settings input classes target) = .ok written ∧
        after = { before with
          files := written.files
          started := written.started
          log := before.log ++ [⟨.info, writtenMessage settings.style target⟩] } := by
  have hsame : before.stage.write (callOf settings input classes target) =
      Table.write before.files before.started settings.style target.kind target.path input classes :=
    rfl
  rw [writeTarget, ends_get_bind, hsame]
  cases Table.write before.files before.started settings.style target.kind target.path input
      classes with
  | error e =>
    constructor
    · intro h
      exact absurd h not_ends_throw
    · rintro ⟨written, h, -⟩
      cases h
  | ok written =>
    rw [ends_bind]
    constructor
    · rintro ⟨_, changed, hset, hinform⟩
      rw [ends_set] at hset
      rw [ends_inform, hset] at hinform
      exact ⟨written, rfl, hinform⟩
    · rintro ⟨_, h, hafter⟩
      cases h
      exact ⟨(), _, ends_set.mpr rfl, ends_inform.mpr hafter⟩

theorem stage_of_ends_writeTarget {target : TableTarget} {u : Unit}
    (h : Ends (writeTarget settings input classes target) before u after) :
    before.stage.Accepts [callOf settings input classes target] ∧
      after.stage = before.stage.call (callOf settings input classes target) ∧
      after.console = before.console := by
  obtain ⟨written, hwrite, rfl⟩ := ends_writeTarget.mp h
  refine ⟨⟨⟨written, hwrite⟩, trivial⟩, ?_, rfl⟩
  rw [Table.Stage.call, hwrite]
  rfl

/-! ### Inputs -/

theorem ends_writeTargets {targets : List TableTarget} {u : Unit}
    (h : Ends (targets.forM (writeTarget settings input classes)) before u after) :
    before.stage.Accepts (targets.map (callOf settings input classes)) ∧
      after.stage = before.stage.run (targets.map (callOf settings input classes)) ∧
      after.console = before.console := by
  induction targets generalizing before with
  | nil =>
    obtain ⟨-, rfl⟩ := ends_pure.mp h
    exact ⟨trivial, rfl, rfl⟩
  | cons target targets ih =>
    obtain ⟨_, between, hone, hrest⟩ := ends_bind.mp h
    obtain ⟨⟨haccepts, -⟩, hstage, hconsole⟩ := stage_of_ends_writeTarget hone
    obtain ⟨hall, hrun, hsame⟩ := ih hrest
    rw [hstage] at hall hrun
    exact ⟨⟨haccepts, hall⟩, hrun, hsame.trans hconsole⟩

theorem exists_ends_writeTargets {targets : List TableTarget}
    (h : before.stage.Accepts (targets.map (callOf settings input classes))) :
    ∃ after, Ends (targets.forM (writeTarget settings input classes)) before () after := by
  induction targets generalizing before with
  | nil => exact ⟨before, ends_pure.mpr ⟨rfl, rfl⟩⟩
  | cons target targets ih =>
    obtain ⟨⟨written, hwrite⟩, hrest⟩ := h
    have hone : Ends (writeTarget settings input classes target) before () _ :=
      ends_writeTarget.mpr ⟨written, hwrite, rfl⟩
    rw [← (stage_of_ends_writeTarget hone).2.1] at hrest
    obtain ⟨after, hall⟩ := ih hrest
    exact ⟨after, ends_bind.mpr ⟨(), _, hone, hall⟩⟩

/-- What has room behind something has room on a blank console. -/
theorem Fits.blank {console : Console} {lines : List String} (h : Fits console lines) :
    Fits (.blank console.limit) lines := by
  cases lines with
  | nil => rfl
  | cons line lines =>
    rw [Fits, List.map_cons, Console.writeAll_cons, Console.write] at h ⊢
    rw [Console.blank]
    cases hlimit : console.limit with
    | none => rfl
    | some most =>
      rw [hlimit] at h
      simp only [decide_eq_true_eq, List.length_append, List.nil_append] at h ⊢
      omega

/-- Whether the listing of some classes is shown without failure. -/
def Lists (settings : Settings) (console : Console) (classes : List ClassRecord) : Prop :=
  settings.isQuiet = true ∨ Fits console (listing settings classes)

theorem ends_report {u : Unit} (h : Ends (report settings input classes) before u after) :
    before.stage.Accepts (settings.targets.map (callOf settings input classes)) ∧
      after.stage = before.stage.run (settings.targets.map (callOf settings input classes)) ∧
      Lists settings before.console classes ∧ after.console.limit = before.console.limit := by
  rw [report, ends_bind] at h
  obtain ⟨_, told, htold, h⟩ := h
  obtain ⟨_, written, hwritten, h⟩ := ends_bind.mp h
  rw [ends_inform] at htold
  have hstage : told.stage = before.stage := by
    rw [htold]
    rfl
  have hconsole : told.console = before.console := by rw [htold]
  obtain ⟨haccepts, hrun, hsame⟩ := ends_writeTargets hwritten
  rw [hstage] at haccepts hrun
  rw [hconsole] at hsame
  cases hquiet : settings.isQuiet with
  | true =>
    rw [hquiet] at h
    obtain ⟨-, rfl⟩ := ends_pure.mp h
    exact ⟨haccepts, hrun, Or.inl hquiet, by rw [hsame]⟩
  | false =>
    rw [hquiet] at h
    obtain ⟨hfits, rfl⟩ := ends_prints.mp h
    rw [hsame] at hfits
    refine ⟨haccepts, hrun, Or.inr hfits, ?_⟩
    rw [← hsame]
    exact Console.limit_writeAll _ _

theorem exists_ends_report
    (haccepts : before.stage.Accepts (settings.targets.map (callOf settings input classes)))
    (hlists : Lists settings before.console classes) :
    ∃ after, Ends (report settings input classes) before () after := by
  let told : Session :=
    { before with log := before.log ++ [⟨.info, s!"Found {classes.length} classes:"⟩] }
  have hstage : told.stage.Accepts (settings.targets.map (callOf settings input classes)) := haccepts
  obtain ⟨written, hwritten⟩ := exists_ends_writeTargets hstage
  have hconsole : written.console = before.console := (ends_writeTargets hwritten).2.2
  have hshow : ∃ after, Ends
      (if !settings.isQuiet then (listing settings classes).forM print else pure ())
      written () after := by
    cases hquiet : settings.isQuiet with
    | true => exact ⟨written, ends_pure.mpr ⟨rfl, rfl⟩⟩
    | false =>
      rcases hlists with hlists | hfits
      · rw [hquiet] at hlists
        cases hlists
      · rw [← hconsole] at hfits
        exact ⟨_, ends_prints.mpr ⟨hfits, rfl⟩⟩
  obtain ⟨after, hafter⟩ := hshow
  exact ⟨after, ends_bind.mpr ⟨(), told, ends_inform.mpr rfl, ends_bind.mpr ⟨(), written, hwritten, hafter⟩⟩⟩

/-- The writes that the classes of an input make. -/
def inputCalls (settings : Settings) (input : String) (discovered : List ClassRecord) :
    List Table.Call :=
  if discovered.isEmpty then []
  else settings.targets.map (callOf settings input (select settings discovered))

variable {introspector : Introspector} {discovered : List ClassRecord}

/-- The session in which the classes of an input are known. -/
def heard (introspector : Introspector) (input : String) (before : Session) : Session :=
  { before with log := before.log ++
      [⟨.info, "=== Analyzing " ++ inputLabel before.files input ++ " : " ++ input ++ " ==="⟩] ++
      (introspector before.files input).log }

theorem ends_processInput_iff {u : Unit}
    (hfound : (introspector before.files input).result = .ok discovered) :
    Ends (processInput introspector settings input) before u after ↔
      Ends (if discovered.isEmpty then
          inform ("No classes found in " ++ inputLabel before.files input ++ ".")
        else report settings input (select settings discovered))
        (heard introspector input before) u after := by
  rw [processInput, ends_get_bind, ends_bind]
  constructor
  · rintro ⟨_, told, htold, h⟩
    obtain ⟨found, between, hintrospect, h⟩ := ends_bind.mp h
    rw [ends_inform] at htold
    rw [htold, ends_introspect] at hintrospect
    obtain ⟨hresult, rfl⟩ := hintrospect
    have heq : found = discovered := by
      have hboth := hresult.symm.trans hfound
      rw [Except.ok.injEq] at hboth
      exact hboth
    rw [heq] at h
    exact h
  · intro h
    exact ⟨(), _, ends_inform.mpr rfl,
      ends_bind.mpr ⟨discovered, _, ends_introspect.mpr ⟨hfound, rfl⟩, h⟩⟩

/-- To the tables, an input is the writes of its classes. -/
theorem ends_processInput {u : Unit}
    (hfound : (introspector before.files input).result = .ok discovered)
    (h : Ends (processInput introspector settings input) before u after) :
    before.stage.Accepts (inputCalls settings input discovered) ∧
      after.stage = before.stage.run (inputCalls settings input discovered) ∧
      (discovered = [] ∨ Lists settings before.console (select settings discovered)) ∧
      after.console.limit = before.console.limit := by
  rw [ends_processInput_iff hfound] at h
  rw [inputCalls]
  cases hempty : discovered.isEmpty with
  | true =>
    rw [hempty, if_pos rfl, ends_inform] at h
    rw [h]
    exact ⟨trivial, rfl, Or.inl (List.isEmpty_iff.mp hempty), rfl⟩
  | false =>
    rw [hempty, if_neg (by decide)] at h
    obtain ⟨haccepts, hrun, hlists, hlimit⟩ := ends_report h
    exact ⟨haccepts, hrun, Or.inr hlists, hlimit⟩

theorem exists_ends_processInput
    (hfound : (introspector before.files input).result = .ok discovered)
    (haccepts : before.stage.Accepts (inputCalls settings input discovered))
    (hlists : discovered = [] ∨ Lists settings before.console (select settings discovered)) :
    ∃ after, Ends (processInput introspector settings input) before () after := by
  simp only [ends_processInput_iff hfound]
  rw [inputCalls] at haccepts
  cases hempty : discovered.isEmpty with
  | true => exact ⟨_, ends_inform.mpr rfl⟩
  | false =>
    rw [hempty, if_neg (by decide)] at haccepts
    rcases hlists with rfl | hlists
    · cases hempty
    · exact exists_ends_report haccepts hlists

end Run

end ClassReport
