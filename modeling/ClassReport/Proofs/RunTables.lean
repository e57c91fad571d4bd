import ClassReport.Proofs.RunSteps
import ClassReport.Proofs.StableSorting

/-!
# The tables of a run

A run over several inputs writes to several tables at once. If these go to different files and the classes
of the inputs do not depend on them, each table is the header and the rows of those inputs that have classes,
in order, as if every input and every table had a run of its own (`execute_tables`).
-/

namespace ClassReport.Run

/-! ### Selected classes -/

/-- Classes of one name keep their order when classes are sorted by name. -/
theorem filter_mergeSort_name (classes : List ClassRecord) (name : String) :
    (classes.mergeSort fun a b => decide (a.name ≤ b.name)).filter (·.name = name) =
      classes.filter (·.name = name) :=
  (stablySorted_mergeSort ClassRecord.name classes).stable name

/-- The classes that are reported: those whose name begins as one of `packages`, or all if there are none,
sorted by name, where classes of one name keep their order. -/
structure Selected (packages : List String) (discovered selected : List ClassRecord) : Prop where
  sorted : selected.Pairwise fun a b => a.name ≤ b.name
  each : ∀ name, selected.filter (·.name = name) =
    if IsAdmitted packages name then discovered.filter (·.name = name) else []

theorem selected_select (settings : Settings) (discovered : List ClassRecord) :
    Selected settings.packages discovered (select settings discovered) := by
  constructor
  · exact pairwise_mergeSort_key ClassRecord.name _
  · intro name
    rw [select, filter_mergeSort_name, List.filter_filter]
    by_cases hadmits : IsAdmitted settings.packages name
    · rw [if_pos hadmits]
      apply List.filter_congr
      intro c _
      by_cases hname : c.name = name
      · simp [hname, settings.admits_eq, hadmits]
      · simp [hname]
    · rw [if_neg hadmits, List.filter_eq_nil_iff]
      intro c _ hc
      simp only [Bool.and_eq_true, settings.admits_eq, decide_eq_true_eq] at hc
      rw [hc.1] at hc
      exact hadmits hc.2

/-! ### Files that stay -/

/-- File systems that differ at the files of some targets only. -/
structure SameApart (origin : FileSystem) (targets : List TableTarget) (files : FileSystem) : Prop where
  current : files.current = origin.current
  elsewhere : ∀ location, (∀ target ∈ targets, origin.target? target.path ≠ some location) →
    files.get? location = origin.get? location

/-- What writes to some targets preserve. -/
structure Steady (origin : FileSystem) (targets : List TableTarget) (files : FileSystem) : Prop where
  tree : files.IsTree
  leads : ∀ path, files.target? path = origin.target? path
  apart : SameApart origin targets files

variable {origin : FileSystem} {targets : List TableTarget} {stage : Table.Stage}

theorem steady_self (h : origin.IsTree) (targets : List TableTarget) :
    Steady origin targets origin := ⟨h, fun _ => rfl, rfl, fun _ _ => rfl⟩

theorem Steady.call (h : Steady origin targets stage.files) {call : Table.Call}
    (hcall : ∃ target ∈ targets, call.path = target.path) :
    Steady origin targets (stage.call call).files := by
  rw [Table.Stage.call]
  cases hwrite : stage.write call with
  | error e => exact h
  | ok written =>
    show Steady origin targets written.files
    rcases Table.write_eq_ok hwrite with ⟨-, -, ⟨location, htarget, hput⟩ | ⟨-, -, hsame⟩⟩
    · have hholds := FileSystem.holds_of_target? htarget
      obtain ⟨target, hmem, hpath⟩ := hcall
      rw [hput]
      refine ⟨h.tree.put_target htarget, ?_, h.apart.current, ?_⟩
      · intro path
        rw [FileSystem.target?_put_eq h.tree hholds]
        exact h.leads path
      · intro place hnone
        have hne : place ≠ location := by
          rintro rfl
          rw [h.leads, hpath] at htarget
          exact hnone target hmem htarget
        rw [hholds.get?_put, if_neg hne]
        exact h.apart.elsewhere place hnone
    · rw [hsame]
      exact h

theorem Steady.run (h : Steady origin targets stage.files) {calls : List Table.Call}
    (hcalls : ∀ call ∈ calls, ∃ target ∈ targets, call.path = target.path) :
    Steady origin targets (stage.run calls).files := by
  induction calls generalizing stage with
  | nil => exact h
  | cons call calls ih =>
    have hone := h.call (hcalls call List.mem_cons_self)
    exact ih hone fun other hmem => hcalls other (List.mem_cons_of_mem _ hmem)

/-- Writes to targets that lead to files succeed. -/
theorem Steady.accepts (h : Steady origin targets stage.files) {calls : List Table.Call}
    (hcalls : ∀ call ∈ calls, ∃ target ∈ targets, call.path = target.path ∧
      ∃ location, origin.target? target.path = some location) : stage.Accepts calls := by
  induction calls generalizing stage with
  | nil => trivial
  | cons call calls ih =>
    obtain ⟨target, hmem, hpath, location, htarget⟩ := hcalls call List.mem_cons_self
    have hleads : stage.files.target? call.path = some location := by
      rw [h.leads, hpath]
      exact htarget
    refine ⟨⟨_, Table.write_of_target? hleads ..⟩, ?_⟩
    exact ih (h.call ⟨target, hmem, hpath⟩) fun other hother =>
      hcalls other (List.mem_cons_of_mem _ hother)

/-! ### The writes of a run -/

variable {settings : Settings} {introspector : Introspector} {found : String → List ClassRecord}
  {before after : Session}

def reporting (found : String → List ClassRecord) (inputs : List String) : List String :=
  inputs.filter fun input => !(found input).isEmpty

def runCalls (settings : Settings) (found : String → List ClassRecord) (inputs : List String) :
    List Table.Call :=
  inputs.flatMap fun input => inputCalls settings input (found input)

theorem runCalls_eq (settings : Settings) (found : String → List ClassRecord)
    (inputs : List String) :
    runCalls settings found inputs = (reporting found inputs).flatMap fun input =>
      settings.targets.map (callOf settings input (select settings (found input))) := by
  induction inputs with
  | nil => rfl
  | cons input inputs ih =>
    rw [runCalls, List.flatMap_cons, reporting, inputCalls]
    cases hempty : (found input).isEmpty with
    | true =>
      rw [List.filter_cons_of_neg (by simp [hempty]), if_pos rfl, List.nil_append]
      exact ih
    | false =>
      rw [List.filter_cons_of_pos (by simp [hempty]), if_neg (by decide), List.flatMap_cons]
      exact congrArg _ ih

theorem mem_inputCalls {input : String} {discovered : List ClassRecord} {call : Table.Call}
    (h : call ∈ inputCalls settings input discovered) :
    ∃ target ∈ settings.targets, call = callOf settings input (select settings discovered) target := by
  rw [inputCalls] at h
  split at h
  · cases h
  · obtain ⟨target, hmem, rfl⟩ := List.mem_map.mp h
    exact ⟨target, hmem, rfl⟩

theorem mem_runCalls {inputs : List String} {call : Table.Call}
    (h : call ∈ runCalls settings found inputs) :
    ∃ input, ∃ target ∈ settings.targets,
      call = callOf settings input (select settings (found input)) target := by
  obtain ⟨input, -, hcall⟩ := List.mem_flatMap.mp h
  exact ⟨input, mem_inputCalls hcall⟩

theorem Lists.blank {console : Console} {classes : List ClassRecord}
    (h : Lists settings console classes) : Lists settings (.blank console.limit) classes :=
  h.imp id Fits.blank

theorem Steady.input {input : String} {discovered : List ClassRecord} {u : Unit}
    (h : Steady origin settings.targets before.files)
    (hresult : (introspector before.files input).result = .ok discovered)
    (hends : Ends (processInput introspector settings input) before u after) :
    Steady origin settings.targets after.files := by
  have hpaths : ∀ call ∈ inputCalls settings input discovered,
      ∃ target ∈ settings.targets, call.path = target.path := by
    intro call hmem
    obtain ⟨target, htarget, rfl⟩ := mem_inputCalls hmem
    exact ⟨target, htarget, rfl⟩
  have hrun : Steady origin settings.targets
      (before.stage.run (inputCalls settings input discovered)).files := .run h hpaths
  rw [← (ends_processInput hresult hends).2.1] at hrun
  exact hrun

theorem Steady.accepts_inputCalls (h : Steady origin settings.targets stage.files)
    (htargets : ∀ target ∈ settings.targets, ∃ location,
      origin.target? target.path = some location)
    (input : String) (discovered : List ClassRecord) :
    stage.Accepts (inputCalls settings input discovered) := by
  refine h.accepts ?_
  intro call hmem
  obtain ⟨target, htarget, rfl⟩ := mem_inputCalls hmem
  exact ⟨target, htarget, rfl, htargets target htarget⟩

/-- To the tables, a run is the writes of its inputs. -/
theorem ends_processInputs {inputs : List String} {u : Unit}
    (hsteady : Steady origin settings.targets before.files)
    (hfound : ∀ files, SameApart origin settings.targets files → ∀ input ∈ inputs,
      (introspector files input).result = .ok (found input))
    (h : Ends (inputs.forM (processInput introspector settings)) before u after) :
    before.stage.Accepts (runCalls settings found inputs) ∧
      after.stage = before.stage.run (runCalls settings found inputs) ∧
      ∀ input ∈ inputs, found input = [] ∨
        Lists settings (.blank before.console.limit) (select settings (found input)) := by
  induction inputs generalizing before with
  | nil =>
    obtain ⟨-, rfl⟩ := ends_pure.mp h
    exact ⟨trivial, rfl, nofun⟩
  | cons input inputs ih =>
    obtain ⟨_, between, hone, hrest⟩ := ends_bind.mp h
    have hresult := hfound before.files hsteady.apart input List.mem_cons_self
    obtain ⟨haccepts, hstage, hlists, hlimit⟩ := ends_processInput hresult hone
    have hbetween := hsteady.input hresult hone
    obtain ⟨hall, hrun, hothers⟩ := ih hbetween
      (fun files hfiles other hmem => hfound files hfiles other (List.mem_cons_of_mem _ hmem)) hrest
    rw [hstage] at hall hrun
    rw [hlimit] at hothers
    rw [runCalls, List.flatMap_cons]
    refine ⟨Table.Stage.accepts_append.mpr ⟨haccepts, hall⟩, ?_, ?_⟩
    · rw [hrun, Table.Stage.run_append]
      rfl
    · intro other hmem
      rcases List.mem_cons.mp hmem with rfl | hmem
      · exact hlists.imp id Lists.blank
      · exact hothers other hmem

/-! ### The tables -/

/-- No two targets lead to one file. -/
def Apart (files : FileSystem) (targets : List TableTarget) : Prop :=
  targets.Pairwise fun a b =>
    ∀ location, files.target? a.path = some location → files.target? b.path ≠ some location

theorem Apart.filter_eq (h : Apart origin targets) {target : TableTarget} (hmem : target ∈ targets)
    {location : Location} (htarget : origin.target? target.path = some location) :
    targets.filter (fun other => origin.target? other.path = some location) = [target] := by
  induction targets with
  | nil => cases hmem
  | cons first targets ih =>
    obtain ⟨hfirst, hrest⟩ := List.pairwise_cons.mp h
    rcases List.mem_cons.mp hmem with rfl | hmem
    · have hnone : targets.filter (fun other => origin.target? other.path = some location) = [] := by
        rw [List.filter_eq_nil_iff]
        intro other hother hsame
        exact hfirst other hother location htarget (by simpa using hsame)
      rw [List.filter_cons_of_pos (by simpa using htarget), hnone]
    · have hne : origin.target? first.path ≠ some location := by
        intro hsame
        exact hfirst target hmem location hsame htarget
      rw [List.filter_cons_of_neg (by simpa using hne)]
      exact ih hrest hmem

/-- What a table holds after some inputs. -/
def tableBytes (settings : Settings) (found : String → List ClassRecord) (kind : TableKind)
    (inputs : List String) : Bytes :=
  Table.headerBytes settings.style kind ++ inputs.flatMap fun input =>
    Table.rowBytes settings.style kind input (select settings (found input))

section Content
variable {inputs : List String}

/-- The writes of a run, as far as they go to the file of one target. -/
theorem filter_runCalls (h : Apart origin settings.targets) {target : TableTarget}
    (hmem : target ∈ settings.targets) {location : Location}
    (htarget : origin.target? target.path = some location) :
    (runCalls settings found inputs).filter (fun call => origin.target? call.path = some location) =
      (reporting found inputs).map fun input =>
        callOf settings input (select settings (found input)) target := by
  have hone (input : String) : (settings.targets.map
      (callOf settings input (select settings (found input)))).filter
        (fun call => origin.target? call.path = some location) =
      [callOf settings input (select settings (found input)) target] := by
    rw [List.filter_map]
    exact congrArg _ (h.filter_eq hmem htarget)
  rw [runCalls_eq, List.filter_flatMap]
  simp only [hone]
  exact List.map_eq_flatMap.symm

/-- What is known of the writes of a run, when all of them succeeded. -/
structure Logged (origin : FileSystem) (settings : Settings) (found : String → List ClassRecord)
    (inputs : List String) (log : List Table.Success) : Prop where
  calls : log.map Table.Success.call = runCalls settings found inputs
  opened : ∀ success ∈ log, success.opened = origin.target? success.call.path

namespace Logged
variable {log : List Table.Success} {target : TableTarget} {location : Location}

theorem mem_calls (h : Logged origin settings found inputs log) {success : Table.Success}
    (hmem : success ∈ log) : success.call ∈ runCalls settings found inputs := by
  rw [← h.calls]
  exact List.mem_map_of_mem hmem

theorem exists_path (h : Logged origin settings found inputs log)
    (hne : reporting found inputs ≠ []) (hmem : target ∈ settings.targets) :
    ∃ success ∈ log, success.call.path = target.path := by
  obtain ⟨input, hinput⟩ := List.exists_mem_of_ne_nil _ hne
  have hcall : callOf settings input (select settings (found input)) target ∈
      runCalls settings found inputs := by
    rw [runCalls_eq]
    exact List.mem_flatMap.mpr ⟨input, hinput, List.mem_map.mpr ⟨target, hmem, rfl⟩⟩
  rw [← h.calls] at hcall
  obtain ⟨success, hin, hsuccess⟩ := List.mem_map.mp hcall
  refine ⟨success, hin, ?_⟩
  rw [hsuccess]
  rfl

theorem key_eq (h : Logged origin settings found inputs log)
    (hapart : Apart origin settings.targets) (hmem : target ∈ settings.targets)
    (htarget : origin.target? target.path = some location) :
    ∀ success ∈ log, success.opened = some location →
      success.call.key = StartedTables.keyOf target.kind target.path ∧
        success.call.headerBytes = Table.headerBytes settings.style target.kind := by
  intro success hin hsame
  obtain ⟨input, other, hother, hcall⟩ := mem_runCalls (h.mem_calls hin)
  rw [h.opened success hin, hcall] at hsame
  have hfiltered : other ∈ settings.targets.filter
      (fun other => origin.target? other.path = some location) :=
    List.mem_filter.mpr ⟨hother, decide_eq_true hsame⟩
  rw [hapart.filter_eq hmem htarget, List.mem_singleton] at hfiltered
  rw [hcall, hfiltered]
  exact ⟨rfl, rfl⟩

theorem rows_eq (h : Logged origin settings found inputs log)
    (hapart : Apart origin settings.targets) (hmem : target ∈ settings.targets)
    (htarget : origin.target? target.path = some location) :
    ((log.filter (·.opened = some location)).flatMap fun success => success.call.rowBytes) =
      (reporting found inputs).flatMap fun input =>
        Table.rowBytes settings.style target.kind input (select settings (found input)) := by
  have hcalls : (log.filter (·.opened = some location)).map Table.Success.call =
      (reporting found inputs).map fun input =>
        callOf settings input (select settings (found input)) target := by
    rw [← filter_runCalls hapart hmem htarget, ← h.calls, List.filter_map]
    refine congrArg _ (List.filter_congr ?_)
    intro success hin
    rw [h.opened success hin]
    rfl
  have hrows := congrArg (List.flatMap Table.Call.rowBytes) hcalls
  rw [List.flatMap_map, List.flatMap_map] at hrows
  exact hrows

end Logged

theorem steady_runCalls (htree : origin.IsTree) (inputs : List String) :
    Steady origin settings.targets
      ((Table.Stage.initial origin).run (runCalls settings found inputs)).files := by
  refine .run (steady_self htree settings.targets) ?_
  intro call hcall
  obtain ⟨input, other, hother, rfl⟩ := mem_runCalls hcall
  exact ⟨other, hother, rfl⟩

/-- After the writes of a run that has any, every target leads to a file that holds its table. -/
theorem target_of_accepts (htree : origin.IsTree) (hapart : Apart origin settings.targets)
    (haccepts : (Table.Stage.initial origin).Accepts (runCalls settings found inputs))
    (hne : reporting found inputs ≠ []) {target : TableTarget} (hmem : target ∈ settings.targets) :
    ∃ location, origin.target? target.path = some location ∧
      ((Table.Stage.initial origin).run (runCalls settings found inputs)).files.read target.path =
        .ok (tableBytes settings found target.kind (reporting found inputs)) := by
  have hrecord := Table.recorded_run (Table.recorded_initial origin) (runCalls settings found inputs)
  rw [List.nil_append] at hrecord
  have hsteady : Steady origin settings.targets
      ((Table.Stage.initial origin).run (runCalls settings found inputs)).files :=
    steady_runCalls htree inputs
  have hlogged : Logged origin settings found inputs
      ((Table.Stage.initial origin).successes (runCalls settings found inputs)) := by
    refine ⟨haccepts.map_call, ?_⟩
    intro success hin
    obtain ⟨location, hlocation, hleads⟩ := hrecord.opened success hin
    rw [hlocation, ← hsteady.leads, hleads]
  obtain ⟨success, hin, hpath⟩ := hlogged.exists_path hne hmem
  obtain ⟨location, hlocation, -⟩ := hrecord.opened success hin
  have htarget : origin.target? target.path = some location := by
    rw [← hpath, ← hlogged.opened success hin, hlocation]
  have hget := hrecord.get?_of_one_key ⟨success, hin, hlocation⟩
    (hlogged.key_eq hapart hmem htarget)
  rw [hlogged.rows_eq hapart hmem htarget] at hget
  refine ⟨location, htarget, FileSystem.read_of_target? ?_ hget⟩
  rw [hsteady.leads]
  exact htarget

end Content

/-! ### Whole runs -/

section Execute
variable {files : FileSystem} {limit : Option Nat} {session : Session}

theorem execute_writes (htree : files.IsTree)
    (hfound : ∀ others, SameApart files settings.targets others → ∀ input ∈ settings.inputs,
      (introspector others input).result = .ok (found input))
    (hrun : execute introspector settings (.start files limit) = (.ok (), session)) :
    (Table.Stage.initial files).Accepts (runCalls settings found settings.inputs) ∧
      session.stage = (Table.Stage.initial files).run (runCalls settings found settings.inputs) ∧
      ∀ input ∈ settings.inputs, found input = [] ∨
        Lists settings (.blank limit) (select settings (found input)) := by
  have hends : Ends (settings.inputs.forM (processInput introspector settings))
      (.start files limit) () session := hrun
  exact ends_processInputs (steady_self htree settings.targets) hfound hends

/-- An input that has classes can be processed alone, for some of the tables, if its listing is shown. -/
theorem exists_execute_alone (htree : files.IsTree) {input : String}
    (hfound : (introspector files input).result = .ok (found input))
    (htargets : ∀ target ∈ targets, ∃ location, files.target? target.path = some location)
    (hlists : found input = [] ∨ Lists settings (.blank limit) (select settings (found input))) :
    ∃ single, execute introspector { settings with inputs := [input], targets := targets }
      (.start files limit) = (.ok (), single) := by
  let alone : Settings := { settings with inputs := [input], targets := targets }
  have haccepts : (Session.start files limit).stage.Accepts
      (inputCalls alone input (found input)) :=
    Steady.accepts_inputCalls (steady_self htree targets) htargets input (found input)
  have hshown : found input = [] ∨
      Lists alone (Session.start files limit).console (select alone (found input)) := hlists
  obtain ⟨single, hsingle⟩ := exists_ends_processInput hfound haccepts hshown
  exact ⟨single, ends_bind.mpr ⟨(), single, hsingle, ends_pure.mpr ⟨rfl, rfl⟩⟩⟩

/-- A run that ends well has left the files as they were if no input has classes. Otherwise every target
holds its table: the header, once, and the rows of the inputs that have classes, in order. The rows of an
input are those that it writes when it is alone in a run, for any of the targets. -/
theorem execute_tables (htree : files.IsTree) (hapart : Apart files settings.targets)
    (hfound : ∀ others, SameApart files settings.targets others → ∀ input ∈ settings.inputs,
      (introspector others input).result = .ok (found input))
    (hrun : execute introspector settings (.start files limit) = (.ok (), session)) :
    (reporting found settings.inputs = [] → session.files = files) ∧
    (reporting found settings.inputs ≠ [] → ∀ target ∈ settings.targets,
      session.files.read target.path =
        .ok (tableBytes settings found target.kind (reporting found settings.inputs))) ∧
    (∀ input ∈ reporting found settings.inputs, ∀ targets, targets.Sublist settings.targets →
      ∃ single, execute introspector { settings with inputs := [input], targets := targets }
          (.start files limit) = (.ok (), single) ∧
        ∀ target ∈ targets, single.files.read target.path =
          .ok (tableBytes settings found target.kind [input])) ∧
    ∀ input, Selected settings.packages (found input) (select settings (found input)) := by
  obtain ⟨haccepts, hstage, hlists⟩ := execute_writes htree hfound hrun
  have hfiles : session.files =
      ((Table.Stage.initial files).run (runCalls settings found settings.inputs)).files :=
    congrArg Table.Stage.files hstage
  refine ⟨?_, ?_, ?_, fun input => selected_select settings (found input)⟩
  · intro hnone
    rw [hfiles, runCalls_eq, hnone]
    rfl
  · intro hne target hmem
    rw [hfiles]
    obtain ⟨-, -, hread⟩ := target_of_accepts htree hapart haccepts hne hmem
    exact hread
  · intro input hinput targets hsub
    obtain ⟨hmem, hclasses⟩ := List.mem_filter.mp hinput
    have hresult (others : FileSystem) (hothers : SameApart files targets others) :
        (introspector others input).result = .ok (found input) := by
      refine hfound others ⟨hothers.current, ?_⟩ input hmem
      intro location hnone
      exact hothers.elsewhere location fun target htarget => hnone target (hsub.subset htarget)
    have htargets : ∀ target ∈ targets, ∃ location, files.target? target.path = some location := by
      intro target htarget
      obtain ⟨location, hlocation, -⟩ :=
        target_of_accepts htree hapart haccepts (List.ne_nil_of_mem hinput) (hsub.subset htarget)
      exact ⟨location, hlocation⟩
    obtain ⟨single, hsingle⟩ := exists_execute_alone htree
      (hresult files (steady_self htree targets).apart) htargets (hlists input hmem)
    refine ⟨single, hsingle, ?_⟩
    have hone : reporting found [input] = [input] := List.filter_cons_of_pos hclasses
    have honly : ∀ others, SameApart files targets others → ∀ other ∈ [input],
        (introspector others other).result = .ok (found other) := by
      intro others hothers other hother
      rw [List.mem_singleton] at hother
      rw [hother]
      exact hresult others hothers
    obtain ⟨haccepts', hstage', -⟩ := execute_writes htree honly hsingle
    intro target htarget
    have hfiles' := congrArg Table.Stage.files hstage'
    obtain ⟨-, -, hread⟩ := target_of_accepts htree (List.Pairwise.sublist hsub hapart) haccepts'
      (by rw [hone]; exact List.cons_ne_nil _ _) htarget
    rw [← hfiles', hone] at hread
    exact hread

/-- A run that shows nothing ends well if all of its targets lead to files. -/
theorem exists_execute (htree : files.IsTree)
    (hfound : ∀ others, SameApart files settings.targets others → ∀ input ∈ settings.inputs,
      (introspector others input).result = .ok (found input))
    (htargets : ∀ target ∈ settings.targets, ∃ location, files.target? target.path = some location)
    (hquiet : settings.isQuiet = true) :
    ∃ session, execute introspector settings (.start files limit) = (.ok (), session) := by
  have hinputs (inputs : List String) (hin : inputs ⊆ settings.inputs) {before : Session}
      (hsteady : Steady files settings.targets before.files) :
      ∃ after, Ends (inputs.forM (processInput introspector settings)) before () after := by
    induction inputs generalizing before with
    | nil => exact ⟨before, ends_pure.mpr ⟨rfl, rfl⟩⟩
    | cons input inputs ih =>
      obtain ⟨hinput, hothers⟩ := List.cons_subset.mp hin
      have hresult := hfound before.files hsteady.apart input hinput
      have haccepts : before.stage.Accepts (inputCalls settings input (found input)) :=
        Steady.accepts_inputCalls hsteady htargets input (found input)
      obtain ⟨between, hone⟩ := exists_ends_processInput hresult haccepts (Or.inr (Or.inl hquiet))
      obtain ⟨after, hrest⟩ := ih hothers (hsteady.input hresult hone)
      exact ⟨after, ends_bind.mpr ⟨(), between, hone, hrest⟩⟩
  exact hinputs settings.inputs (List.Subset.refl _) (steady_self htree settings.targets)

section Twice
open Table (yard ideographs ideograph ideographRow)

def classesOf (input : String) : List ClassRecord := if input = "a.jar" then [ideograph] else []

/-- An input without classes and one with a class, twice, for two tables. -/
def twice : Settings where
  inputs := ["empty.jar", "a.jar", "a.jar"]
  isVerbose := false
  isQuiet := true
  packages := ["p."]
  targets := [⟨.fields, "d/fields.csv"⟩, ⟨.methods, "d/methods.csv"⟩]
  style := ⟨.csv, ideographs⟩

theorem select_twice : select twice (classesOf "a.jar") = [ideograph] := by
  have hclasses : classesOf "a.jar" = [ideograph] := rfl
  rw [hclasses, select, List.filter_cons_of_pos (by decide), List.filter_nil, List.mergeSort_singleton]

theorem tableBytes_twice :
    tableBytes twice classesOf .fields ["a.jar", "a.jar"] =
        Table.headerBytes ⟨.csv, ideographs⟩ .fields ++ ideographRow ++ ideographRow ∧
      tableBytes twice classesOf .methods ["a.jar", "a.jar"] =
        Table.headerBytes ⟨.csv, ideographs⟩ .methods := by
  have hstyle : twice.style = ⟨.csv, ideographs⟩ := rfl
  have hrow : Table.rowBytes ⟨.csv, ideographs⟩ .fields "a.jar" [ideograph] = ideographRow :=
    Table.rowBytes_ideographCall "d/fields.csv"
  have hnone : Table.rowBytes ⟨.csv, ideographs⟩ .methods "a.jar" [ideograph] = [] := by decide +kernel
  simp only [tableBytes, List.flatMap_cons, List.flatMap_nil, select_twice, hstyle, hrow, hnone,
    List.append_nil, List.append_assoc, and_self]

/-- The one field of the class is in its table twice; the other table has its header only. -/
theorem execute_tables_twice : ∃ session,
    execute (fun _ input => ⟨.ok (classesOf input), []⟩) twice (.start yard none) =
      (.ok (), session) ∧
    session.files.read "d/fields.csv" =
      .ok (Table.headerBytes ⟨.csv, ideographs⟩ .fields ++ ideographRow ++ ideographRow) ∧
    session.files.read "d/methods.csv" = .ok (Table.headerBytes ⟨.csv, ideographs⟩ .methods) := by
  have hfields : yard.target? "d/fields.csv" = some ["d", "fields.csv"] := by decide
  have hmethods : yard.target? "d/methods.csv" = some ["d", "methods.csv"] := by decide
  have htree : yard.IsTree := by decide
  have htargets : ∀ target ∈ twice.targets, ∃ location, yard.target? target.path = some location := by
    intro target hmem
    rcases List.mem_cons.mp hmem with rfl | hmem
    · exact ⟨_, hfields⟩
    · rw [List.mem_singleton.mp hmem]
      exact ⟨_, hmethods⟩
  have hapart : Apart yard twice.targets := by
    refine List.pairwise_pair.mpr ?_
    intro location hfirst hsecond
    have hsame := (hfields.symm.trans hfirst).trans (hsecond.symm.trans hmethods)
    revert hsame
    decide
  have hends : ∃ session, execute (fun _ input => ⟨.ok (classesOf input), []⟩) twice
      (.start yard none) = (.ok (), session) :=
    exists_execute htree (fun _ _ _ _ => rfl) htargets rfl
  obtain ⟨session, hrun⟩ := hends
  obtain ⟨-, htables, -⟩ := execute_tables htree hapart (fun _ _ _ _ => rfl) hrun
  have hall := htables (by decide)
  rw [← tableBytes_twice.1, ← tableBytes_twice.2]
  exact ⟨session, hrun, hall ⟨.fields, "d/fields.csv"⟩ (by decide),
    hall ⟨.methods, "d/methods.csv"⟩ (by decide)⟩

end Twice

end Execute

end ClassReport.Run
