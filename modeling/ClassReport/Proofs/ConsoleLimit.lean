import ClassReport.Proofs.Verbosity

/-!
# Consoles with room for so much

On a console with room for so many bytes a run goes as it does on one with room for everything, up to the
line that goes beyond them: there it fails, with the tables of that input written and nothing done for the
inputs behind (`execute_limited`).
-/

namespace ClassReport

namespace Console

variable {console : Console} {most : Nat}

/-! ### Less room -/

/-- The console that shows as much of the same as it has room for. -/
def cutTo (most : Nat) (console : Console) : Console := ⟨some most, console.written.take most⟩

theorem sound_cutTo (most : Nat) (console : Console) : (console.cutTo most).Sound := by
  intro limit hlimit
  cases hlimit
  exact List.length_take_le most console.written

theorem written_write (bytes : Bytes) (hroom : console.limit = none) :
    (console.write bytes).1.written = console.written ++ bytes := by
  rw [write, hroom]

theorem done_write (bytes : Bytes) (hroom : console.limit = none) : (console.write bytes).2 = true := by
  rw [write, hroom]

/-- While all that was written fits, less room makes a difference only to what does not fit of a write. -/
theorem write_cutTo (bytes : Bytes) (hroom : console.limit = none)
    (hfits : console.written.length ≤ most) :
    (console.cutTo most).write bytes =
      ((console.write bytes).1.cutTo most, decide ((console.write bytes).1.written.length ≤ most)) := by
  rw [cutTo, cutTo, written_write bytes hroom, List.take_of_length_le hfits]
  rfl

end Console

/-- The session with less room on its console. -/
def Session.cutTo (most : Nat) (session : Session) : Session :=
  { session with console := session.console.cutTo most }

namespace Run

variable {introspector : Introspector} {settings : Settings} {input : String} {most : Nat}
  {session : Session}

/-! ### One input -/

/-- An input adds to what is written, unless it fails. -/
theorem console_processInput (introspector : Introspector) (settings : Settings) (input : String)
    (hroom : session.console.limit = none) :
    let outcome := (processInput introspector settings input).run.run session
    outcome.2.console.limit = none ∧ session.console.written <+: outcome.2.console.written ∧
      (outcome.1 = .ok () ∨ outcome.2.console.written = session.console.written) := by
  have hconsole : ((prepare introspector settings input).run.run session).2.console =
      session.console := console_prepare session
  simp only [run_processInput (Console.sound_of_room hroom)]
  rcases houtcome : (prepare introspector settings input).run.run session with ⟨e | found, after⟩
  · rw [houtcome] at hconsole
    have hsame : after.console = session.console := hconsole
    simp only [hsame]
    exact ⟨hroom, List.prefix_rfl, Or.inr trivial⟩
  · simp only [Console.limit_write, Console.written_write _ hroom, Console.done_write _ hroom, if_true]
    exact ⟨hroom, List.prefix_append _ _, Or.inl trivial⟩

/-- With less room an input comes to the same as long as all that is written fits. If it does not, the
listing fails, and that is the last thing done for an input. -/
theorem run_processInput_cutTo (introspector : Introspector) (settings : Settings) (input : String)
    (hroom : session.console.limit = none) (hfits : session.console.written.length ≤ most) :
    let outcome := (processInput introspector settings input).run.run session
    (processInput introspector settings input).run.run (session.cutTo most) =
      (if outcome.2.console.written.length ≤ most then outcome.1 else .error .consoleFull,
        outcome.2.cutTo most) := by
  have hconsole : ((prepare introspector settings input).run.run session).2.console =
      session.console := console_prepare session
  have hcut : (prepare introspector settings input).run.run (session.cutTo most) = _ :=
    run_prepare_onto session (session.console.cutTo most)
  have hsound : (session.cutTo most).console.Sound := Console.sound_cutTo _ _
  simp only [run_processInput (Console.sound_of_room hroom), run_processInput hsound, hcut]
  rcases houtcome : (prepare introspector settings input).run.run session with ⟨e | found, after⟩
  · rw [houtcome] at hconsole
    have hsame : after.console = session.console := hconsole
    simp only [hsame, hfits, if_true, Session.cutTo]
  · have hwrite := Console.write_cutTo (announcement settings found) hroom hfits
    simp only [Session.cutTo, hwrite, Console.done_write _ hroom, if_true, decide_eq_true_eq]

/-! ### All inputs -/

theorem prefix_executeOver (introspector : Introspector) (settings : Settings) (inputs : List String)
    (hroom : session.console.limit = none) :
    session.console.written <+:
      (executeOver introspector settings inputs session).2.console.written := by
  induction inputs generalizing session with
  | nil => exact List.prefix_rfl
  | cons input later ih =>
    obtain ⟨hlimit, hprefix, -⟩ := console_processInput introspector settings input hroom
    rw [executeOver_cons]
    rcases houtcome : (processInput introspector settings input).run.run session with ⟨e | ⟨⟩, after⟩
    · rw [houtcome] at hprefix
      exact hprefix
    · rw [houtcome] at hlimit hprefix
      exact hprefix.trans (ih hlimit)

theorem executeOver_cutTo_of_le (introspector : Introspector) (settings : Settings)
    (inputs : List String) (hroom : session.console.limit = none)
    (hfits : (executeOver introspector settings inputs session).2.console.written.length ≤ most) :
    executeOver introspector settings inputs (session.cutTo most) =
      ((executeOver introspector settings inputs session).1,
        (executeOver introspector settings inputs session).2.cutTo most) := by
  induction inputs generalizing session with
  | nil => rfl
  | cons input later ih =>
    have hall := prefix_executeOver introspector settings (input :: later) hroom
    have hcut := run_processInput_cutTo introspector settings input hroom
      (Nat.le_trans hall.length_le hfits)
    obtain ⟨hlimit, -⟩ := console_processInput introspector settings input hroom
    rw [executeOver_cons] at hfits
    rw [executeOver_cons, executeOver_cons, hcut]
    rcases houtcome : (processInput introspector settings input).run.run session with ⟨e | ⟨⟩, after⟩
    · rw [houtcome] at hfits
      simp only at hfits
      simp only [hfits, if_true]
    · rw [houtcome] at hfits hlimit
      have hrest := prefix_executeOver introspector settings later hlimit
      have hafter : after.console.written.length ≤ most := Nat.le_trans hrest.length_le hfits
      simp only [hafter, if_true]
      exact ih hlimit hfits

/-- The first input with which more is written than there is room for is the last one. -/
theorem executeOver_cutTo_of_lt {inputs : List String} (hroom : session.console.limit = none)
    (hfits : session.console.written.length ≤ most)
    (hover : most < (executeOver introspector settings inputs session).2.console.written.length) :
    ∃ done input later earlier reached, inputs = done ++ input :: later ∧
      executeOver introspector settings done session = (.ok (), earlier) ∧
      earlier.console.written.length ≤ most ∧
      executeOver introspector settings (done ++ [input]) session = (.ok (), reached) ∧
      most < reached.console.written.length ∧
      reached.console.written <+:
        (executeOver introspector settings inputs session).2.console.written ∧
      executeOver introspector settings inputs (session.cutTo most) =
        (.error .consoleFull, reached.cutTo most) := by
  induction inputs generalizing session with
  | nil => exact absurd hfits (Nat.not_le.mpr hover)
  | cons input later ih =>
    have hcut := run_processInput_cutTo introspector settings input hroom hfits
    obtain ⟨hlimit, -, hresult⟩ := console_processInput introspector settings input hroom
    have hone : executeOver introspector settings [input] session =
        (processInput introspector settings input).run.run session := by
      rw [executeOver_cons]
      rcases (processInput introspector settings input).run.run session with ⟨e | ⟨⟩, after⟩
      · rfl
      · rfl
    rw [executeOver_cons] at hover
    rw [executeOver_cons, executeOver_cons, hcut]
    rcases houtcome : (processInput introspector settings input).run.run session with ⟨e | ⟨⟩, after⟩
    · -- A failing input writes nothing, so the console is not full after it.
      rw [houtcome] at hover hresult
      rcases hresult with hok | hsame
      · cases hok
      · simp only at hover hsame
        rw [hsame] at hover
        omega
    rw [houtcome] at hover hlimit hone
    by_cases hafter : after.console.written.length ≤ most
    · obtain ⟨done, next, rest, earlier, reached, rfl, hdone, hearlier, hreached, hlast, hprefix,
        hstops⟩ := ih hlimit hafter hover
      refine ⟨input :: done, next, rest, earlier, reached, rfl, ?_, hearlier, ?_, hlast, hprefix, ?_⟩
      · rw [executeOver_cons, houtcome]
        exact hdone
      · rw [List.cons_append, executeOver_cons, houtcome]
        exact hreached
      · simp only [hafter, if_true]
        exact hstops
    · refine ⟨[], input, later, session, after, rfl, rfl, hfits, hone, Nat.lt_of_not_le hafter,
        prefix_executeOver introspector settings later hlimit, ?_⟩
      simp only [hafter, if_false]

/-- On a console with room for so many bytes a run shows the first ones of what it shows with room for
everything, and comes to the same if that is all. If not, it fails at the first input with which there is more
to show than that; the tables of this input are written, and nothing is done for the inputs behind. -/
theorem execute_limited (introspector : Introspector) (settings : Settings) (files : FileSystem)
    (most : Nat) :
    let free := execute introspector settings (.start files none)
    let limited := execute introspector settings (.start files (some most))
    limited.2.console.written = free.2.console.written.take most ∧
      (free.2.console.written.length ≤ most →
        limited.1 = free.1 ∧ limited.2.files = free.2.files) ∧
      (most < free.2.console.written.length →
        limited.1 = .error .consoleFull ∧ Failure.consoleFull.messages = ["sink full"] ∧
          ∃ done input later earlier reached, settings.inputs = done ++ input :: later ∧
            execute introspector { settings with inputs := done } (.start files none) =
              (.ok (), earlier) ∧
            earlier.console.written.length ≤ most ∧
            execute introspector { settings with inputs := done ++ [input] } (.start files none) =
              (.ok (), reached) ∧
            most < reached.console.written.length ∧
            limited.2.files = reached.files) := by
  intro free limited
  have hlimited : limited =
      executeOver introspector settings settings.inputs ((Session.start files none).cutTo most) := by
    have hstart : (Session.start files none).cutTo most = .start files (some most) := by
      simp only [Session.cutTo, Console.cutTo, Session.start, Console.blank, List.take_nil]
    rw [hstart]
    rfl
  rcases Nat.lt_or_ge most free.2.console.written.length with hover | hfits
  · obtain ⟨done, input, later, earlier, reached, hinputs, hdone, hearlier, hreached, hlast, hprefix,
      hstops⟩ := executeOver_cutTo_of_lt rfl (Nat.zero_le most) hover
    rw [hlimited, hstops]
    obtain ⟨rest, hrest⟩ := hprefix
    have hfree : free.2.console.written = reached.console.written ++ rest := hrest.symm
    have htake : reached.console.written.take most = free.2.console.written.take most := by
      rw [hfree, List.take_append_of_le_length (Nat.le_of_lt hlast)]
    refine ⟨htake, fun hfits => absurd hfits (Nat.not_le.mpr hover), fun _ => ?_⟩
    exact ⟨rfl, rfl, done, input, later, earlier, reached, hinputs, hdone, hearlier, hreached,
      hlast, rfl⟩
  · have hsame := executeOver_cutTo_of_le introspector settings settings.inputs rfl hfits
    rw [hlimited, hsame]
    exact ⟨rfl, fun _ => ⟨rfl, rfl⟩, fun hover => absurd hfits (Nat.not_le.mpr hover)⟩

section Repeated
open ClassFile (bare)

/-- Finds one class wherever it looks. -/
def repeated : Introspector := fun _ _ => ⟨.ok [bare.toRecord], []⟩

def twoInputs : Settings := { intoDirectory with inputs := ["d", "e"], targets := [] }

theorem listed_repeated (session : Session) :
    listed repeated twoInputs twoInputs.inputs session = [bare.toRecord, bare.toRecord] := by
  have hselect : select twoInputs [bare.toRecord] = [bare.toRecord] := by
    rw [select, List.filter_cons_of_pos (by decide), List.filter_nil, List.mergeSort_singleton]
  have hprepare (input : String) (before : Session) : ∃ after,
      (prepare repeated twoInputs input).run.run before = (.ok (some [bare.toRecord]), after) := by
    have hfound : ((prepare repeated twoInputs input).run.run before).1 =
        .ok (some (select twoInputs [bare.toRecord])) := rfl
    rw [hselect] at hfound
    exact ⟨_, Prod.ext hfound rfl⟩
  obtain ⟨between, hfirst⟩ := hprepare "d" session
  obtain ⟨after, hsecond⟩ := hprepare "e" between
  have hinputs : twoInputs.inputs = ["d", "e"] := rfl
  rw [hinputs, listed, hfirst]
  simp only [listed, hsecond]
  rfl

theorem written_repeated (files : FileSystem) :
    (execute repeated twoInputs (.start files none)).2.console.written.length = 8 := by
  have hwritten : (execute repeated twoInputs (.start files none)).2.console.written =
      [] ++ listingBytes twoInputs (listed repeated twoInputs twoInputs.inputs _) :=
    written_executeOver rfl rfl
  rw [hwritten, listed_repeated]
  decide +kernel

/-- The line of the second input is cut after its first byte. -/
theorem execute_limited_repeated :
    (execute repeated twoInputs (.start damaged (some 5))).1 = .error .consoleFull ∧
      (execute repeated twoInputs (.start damaged (some 5))).2.console.written.length = 5 := by
  obtain ⟨hwritten, -, hfull⟩ := execute_limited repeated twoInputs damaged 5
  have hlength := written_repeated damaged
  refine ⟨(hfull (by omega)).1, ?_⟩
  rw [hwritten, List.length_take, hlength]
  rfl

end Repeated

end Run

end ClassReport
