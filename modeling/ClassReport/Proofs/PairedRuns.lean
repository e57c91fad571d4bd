import ClassReport.Proofs.RunSteps

/-!
# Two runs side by side

Two steps are coupled if from sessions that stand in a relation they come to the same result and to sessions
that stand in it again. All that an input does before its listing is coupled with itself, whatever the two
consoles hold (`coupled_prepare`); what is left is the listing.
-/

namespace ClassReport

namespace Run

variable {α β : Type} {R : Session → Session → Prop}

def Coupled (R : Session → Session → Prop) (step other : Run α) : Prop :=
  ∀ ⦃before before' : Session⦄, R before before' →
    (other.run.run before').1 = (step.run.run before).1 ∧
      R (step.run.run before).2 (other.run.run before').2

theorem coupled_pure (value : α) : Coupled R (pure value) (pure value) := fun _ _ h => ⟨rfl, h⟩

theorem coupled_throw (e : Failure) : Coupled R (throw e : Run α) (throw e) := fun _ _ h => ⟨rfl, h⟩

theorem coupled_set {session session' : Session} (h : R session session') :
    Coupled R (set session : Run Unit) (set session') := fun _ _ _ => ⟨rfl, h⟩

theorem Coupled.bind {step other : Run α} {next next' : α → Run β} (h : Coupled R step other)
    (hnext : ∀ value, Coupled R (next value) (next' value)) :
    Coupled R (step >>= next) (other >>= next') := by
  intro before before' hbefore
  obtain ⟨hsame, hbetween⟩ := h hbefore
  rw [run_bind, run_bind]
  rcases hstep : step.run.run before with ⟨result, between⟩
  rcases hother : other.run.run before' with ⟨result', between'⟩
  rw [hstep, hother] at hsame hbetween
  cases hsame
  cases result with
  | ok value => exact hnext value hbetween
  | error e => exact ⟨rfl, hbetween⟩

theorem coupled_get_bind {next next' : Session → Run β}
    (h : ∀ session session', R session session' → Coupled R (next session) (next' session')) :
    Coupled R (get >>= next) (get >>= next') := by
  intro before before' hbefore
  exact h before before' hbefore hbefore

theorem Coupled.forM {steps : List α} {run run' : α → Run Unit}
    (h : ∀ step ∈ steps, Coupled R (run step) (run' step)) :
    Coupled R (steps.forM run) (steps.forM run') := by
  induction steps with
  | nil => exact coupled_pure ()
  | cons step steps ih =>
    have hfirst := h step List.mem_cons_self
    have hrest := ih fun other hother => h other (List.mem_cons_of_mem _ hother)
    exact hfirst.bind fun _ => hrest

/-! ### Sessions that differ in console and log -/

structure Beside (C : Console → Console → Prop) (L : Log → Log → Prop) (session session' : Session) :
    Prop where
  files : session'.files = session.files
  started : session'.started = session.started
  console : C session.console session'.console
  log : L session.log session'.log

variable {C : Console → Console → Prop} {L : Log → Log → Prop} {settings : Settings} {input : String}

/-- More lines leave logs related. -/
def Grows (L : Log → Log → Prop) (lines lines' : Log) : Prop :=
  ∀ log log', L log log' → L (log ++ lines) (log' ++ lines')

theorem coupled_tell {lines lines' : Log} (h : Grows L lines lines') :
    Coupled (Beside C L) (tell lines) (tell lines') := fun _ _ hbefore =>
  ⟨rfl, hbefore.files, hbefore.started, hbefore.console, h _ _ hbefore.log⟩

theorem coupled_introspect {introspector other : Introspector}
    (hresult : ∀ files, (other files input).result = (introspector files input).result)
    (hlog : ∀ files, Grows L (introspector files input).log (other files input).log) :
    Coupled (Beside C L) (introspect introspector input) (introspect other input) := by
  refine coupled_get_bind fun session session' hsession => ?_
  rw [hsession.files]
  refine (coupled_tell (hlog session.files)).bind fun _ => ?_
  rw [hresult]
  cases (introspector session.files input).result with
  | ok classes => exact coupled_pure classes
  | error e => exact coupled_throw _

theorem coupled_prints {lines lines' : List String}
    (h : ∀ console console', C console console' →
      (console'.writeAll (lines'.map utf8Bytes)).2 = (console.writeAll (lines.map utf8Bytes)).2 ∧
        C (console.writeAll (lines.map utf8Bytes)).1 (console'.writeAll (lines'.map utf8Bytes)).1) :
    Coupled (Beside C L) (lines.forM print) (lines'.forM print) := by
  intro before before' hbefore
  obtain ⟨hdone, hconsole⟩ := h _ _ hbefore.console
  rw [run_prints, run_prints, hdone]
  exact ⟨rfl, hbefore.files, hbefore.started, hconsole, hbefore.log⟩

variable (hgrows : ∀ lines, Grows L lines lines)

include hgrows

theorem coupled_writeTarget (classes : List ClassRecord) (target : TableTarget) :
    Coupled (Beside C L) (writeTarget settings input classes target)
      (writeTarget settings input classes target) := by
  refine coupled_get_bind fun session session' hsession => ?_
  rw [hsession.files, hsession.started]
  cases Table.write session.files session.started settings.style target.kind target.path input
      classes with
  | error e => exact coupled_throw e
  | ok written =>
    have hset : Beside C L { session with files := written.files, started := written.started }
        { session' with files := written.files, started := written.started } :=
      ⟨rfl, rfl, hsession.console, hsession.log⟩
    exact (coupled_set hset).bind fun _ => coupled_tell (hgrows _)

omit hgrows

/-! ### An input and its listing -/

/-- What an input does before its listing: the classes to list, if any were discovered. -/
def prepare (introspector : Introspector) (settings : Settings) (input : String) :
    Run (Option (List ClassRecord)) := do
  let session ← get
  let label := inputLabel session.files input
  inform ("=== Analyzing " ++ label ++ " : " ++ input ++ " ===")
  let discovered ← introspect introspector input
  if discovered.isEmpty then
    inform ("No classes found in " ++ label ++ ".")
    pure none
  else
    let classes := select settings discovered
    inform s!"Found {classes.length} classes:"
    settings.targets.forM (writeTarget settings input classes)
    pure (some classes)

def announce (settings : Settings) : Option (List ClassRecord) → Run Unit
  | none => pure ()
  | some classes => if settings.isQuiet then pure () else (listing settings classes).forM print

theorem processInput_eq (introspector : Introspector) (settings : Settings) (input : String) :
    processInput introspector settings input =
      prepare introspector settings input >>= announce settings := by
  rw [processInput, prepare]
  simp only [bind_assoc]
  refine bind_congr fun session => bind_congr fun _ => bind_congr fun discovered => ?_
  cases discovered.isEmpty with
  | true =>
    simp only [if_true, bind_assoc, pure_bind, announce]
    exact (bind_pure _).symm
  | false =>
    simp only [Bool.false_eq_true, if_false, report, bind_assoc, pure_bind, announce]
    cases settings.isQuiet with
    | true => rfl
    | false => rfl

theorem coupled_prepare {introspector other : Introspector}
    (hgrows : ∀ lines, Grows L lines lines)
    (hresult : ∀ files, (other files input).result = (introspector files input).result)
    (hlog : ∀ files, Grows L (introspector files input).log (other files input).log) :
    Coupled (Beside C L) (prepare introspector settings input) (prepare other settings input) := by
  refine coupled_get_bind fun session session' hsession => ?_
  rw [hsession.files]
  refine (coupled_tell (hgrows _)).bind fun _ => ?_
  refine (coupled_introspect hresult hlog).bind fun discovered => ?_
  cases discovered.isEmpty with
  | true => exact (coupled_tell (hgrows _)).bind fun _ => coupled_pure none
  | false =>
    refine (coupled_tell (hgrows _)).bind fun _ => ?_
    have htargets : Coupled (Beside C L)
        (settings.targets.forM (writeTarget settings input (select settings discovered)))
        (settings.targets.forM (writeTarget settings input (select settings discovered))) :=
      .forM fun target _ => coupled_writeTarget hgrows _ target
    exact htargets.bind fun _ => coupled_pure _

theorem grows_eq (lines : Log) : Grows Eq lines lines := by
  intro log log' h
  rw [h]

theorem coupled_processInputs {introspector other : Introspector} {settings' : Settings}
    (hinputs : settings'.inputs = settings.inputs)
    (hprepare : ∀ input, Coupled (Beside C L) (prepare introspector settings input)
      (prepare other settings' input))
    (hannounce : ∀ classes, Coupled (Beside C L) (announce settings (some classes))
      (announce settings' (some classes))) :
    Coupled (Beside C L) (processInputs introspector settings) (processInputs other settings') := by
  rw [processInputs, processInputs, hinputs]
  refine Coupled.forM fun input _ => ?_
  rw [processInput_eq, processInput_eq]
  refine (hprepare input).bind fun listed => ?_
  cases listed with
  | none => exact coupled_pure ()
  | some classes => exact hannounce classes

/-- The bytes of a listing; none if it is not to be shown, or if there is nothing to list. -/
def announcement (settings : Settings) (found : Option (List ClassRecord)) : Bytes :=
  if settings.isQuiet then []
  else ((listing settings (found.getD [])).map utf8Bytes).flatten

/-- A listing comes to one write of all its lines, and not showing it to a write of nothing. -/
theorem run_announce {session : Session} (hsound : session.console.Sound)
    (found : Option (List ClassRecord)) :
    (announce settings found).run.run session =
      (if (session.console.write (announcement settings found)).2 then .ok ()
        else .error .consoleFull,
        { session with console := (session.console.write (announcement settings found)).1 }) := by
  have hnothing (hempty : announcement settings found = []) :
      (.ok (), session) =
        ((if (session.console.write (announcement settings found)).2 then .ok ()
          else .error .consoleFull,
          { session with console := (session.console.write (announcement settings found)).1 }) :
          Except Failure Unit × Session) := by
    rw [hempty, hsound.write_nil]
    rfl
  cases hquiet : settings.isQuiet with
  | true =>
    have hsilent : announce settings found = pure () := by
      cases found with
      | none => rfl
      | some classes => rw [announce, hquiet, if_pos rfl]
    rw [hsilent]
    exact hnothing (by rw [announcement, hquiet, if_pos rfl])
  | false =>
    cases found with
    | none => exact hnothing (by rw [announcement, hquiet]; rfl)
    | some classes =>
      rw [announce, announcement, hquiet, if_neg Bool.false_ne_true, if_neg Bool.false_ne_true]
      rw [run_prints, hsound.writeAll_eq]
      rfl

/-- The outcome of a run over these inputs. -/
def executeOver (introspector : Introspector) (settings : Settings) (inputs : List String)
    (session : Session) : Except Failure Unit × Session :=
  (inputs.forM (processInput introspector settings)).run.run session

theorem executeOver_cons (introspector : Introspector) (settings : Settings) (input : String)
    (later : List String) (session : Session) :
    executeOver introspector settings (input :: later) session =
      match (processInput introspector settings input).run.run session with
      | (.ok _, between) => executeOver introspector settings later between
      | (.error e, between) => (.error e, between) := by
  have hcons : executeOver introspector settings (input :: later) session =
      (processInput introspector settings input >>= fun _ =>
        later.forM (processInput introspector settings)).run.run session := rfl
  rw [hcons, run_bind]
  rcases (processInput introspector settings input).run.run session with ⟨e | ⟨⟩, between⟩
  · rfl
  · rfl

variable {introspector : Introspector}

/-- What an input does before its listing is the same in front of any console, which stays as it is. -/
theorem run_prepare_onto (session : Session) (console : Console) :
    (prepare introspector settings input).run.run { session with console } =
      (((prepare introspector settings input).run.run session).1,
        { ((prepare introspector settings input).run.run session).2 with console }) := by
  have hcoupled : Coupled
      (Beside (fun shown shown' => shown = session.console ∧ shown' = console) Eq)
      (prepare introspector settings input) (prepare introspector settings input) :=
    coupled_prepare grows_eq (fun _ => rfl) fun _ => grows_eq _
  have hbefore : Beside (fun shown shown' => shown = session.console ∧ shown' = console) Eq session
      { session with console } := ⟨rfl, rfl, ⟨rfl, rfl⟩, rfl⟩
  obtain ⟨hresult, hfiles, hstarted, ⟨-, hconsole⟩, hlog⟩ := hcoupled hbefore
  rcases houtcome : (prepare introspector settings input).run.run { session with console } with
    ⟨result, ⟨files, started, shown, log⟩⟩
  rw [houtcome] at hresult hfiles hstarted hconsole hlog
  simp only at hresult hfiles hstarted hconsole hlog
  rw [hresult, hfiles, hstarted, hconsole, ← hlog]

theorem console_prepare (session : Session) :
    ((prepare introspector settings input).run.run session).2.console = session.console := by
  have hsame : (prepare introspector settings input).run.run session =
      (((prepare introspector settings input).run.run session).1,
        { ((prepare introspector settings input).run.run session).2 with
          console := session.console }) := run_prepare_onto session session.console
  exact congrArg (fun outcome => outcome.2.console) hsame

theorem run_processInput {session : Session} (hsound : session.console.Sound) :
    (processInput introspector settings input).run.run session =
      match (prepare introspector settings input).run.run session with
      | (.ok found, after) =>
        (if (session.console.write (announcement settings found)).2 then .ok ()
          else .error .consoleFull,
          { after with console := (session.console.write (announcement settings found)).1 })
      | (.error e, after) => (.error e, after) := by
  have hconsole : ((prepare introspector settings input).run.run session).2.console =
      session.console := console_prepare session
  rw [processInput_eq, run_bind]
  rcases houtcome : (prepare introspector settings input).run.run session with ⟨e | found, after⟩
  · rfl
  · rw [houtcome] at hconsole
    have hsame : after.console = session.console := hconsole
    have hafter : after.console.Sound := by rwa [hsame]
    simp only [run_announce hafter found, hsame]

end Run

end ClassReport
