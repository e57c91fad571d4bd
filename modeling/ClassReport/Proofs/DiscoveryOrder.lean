import ClassReport.Proofs.PairedRuns
import ClassReport.Proofs.StableSorting

/-!
# The order of discovery

A report sorts all that it shows. Where the keys of the sorting tell classes and members apart, it does not
matter in which order an introspector finds them: the run, its tables and its listing are the same
(`execute_reordered`). Methods that are not reported may stand anywhere and repeat.
-/

namespace ClassReport

theorem map_eq_of_forall₂ {α β γ : Type} {R : α → β → Prop} {f : α → γ} {g : β → γ} {xs : List α}
    {ys : List β} (h : List.Forall₂ R xs ys) (hsame : ∀ x y, R x y → f x = g y) :
    xs.map f = ys.map g := by
  induction h with
  | nil => rfl
  | cons hfirst _ ih => rw [List.map_cons, List.map_cons, hsame _ _ hfirst, ih]

/-! ### Classes whose members come in another order -/

namespace ClassRecord

structure Reordered (record other : ClassRecord) : Prop where
  apart : other = { record with
    fields := other.fields, methods := other.methods, constructors := other.constructors }
  fields : record.fields.Perm other.fields
  methods : record.methods.Perm other.methods
  constructors : record.constructors.Perm other.constructors

/-- No two members that are reported have the same key. -/
structure Distinct (record : ClassRecord) : Prop where
  fields : (record.fields.map (·.name)).Nodup
  methods : ((record.methods.filter fun m => isReportableMethod m.name).map (·.name)).Nodup
  constructors : (record.constructors.map (·.parameterTypes.length)).Nodup

variable {record other : ClassRecord}

namespace Reordered

theorem name_eq (h : Reordered record other) : record.name = other.name :=
  (congrArg ClassRecord.name h.apart).symm

theorem sortedFields_eq (h : Reordered record other) (hdistinct : record.Distinct) :
    record.sortedFields = other.sortedFields :=
  mergeSort_eq_of_perm FieldRecord.name h.fields hdistinct.fields

theorem reportableMethods_eq (h : Reordered record other) (hdistinct : record.Distinct) :
    record.reportableMethods = other.reportableMethods :=
  mergeSort_eq_of_perm MethodRecord.name (h.methods.filter _) hdistinct.methods

theorem sortedConstructors_eq (h : Reordered record other) (hdistinct : record.Distinct) :
    record.sortedConstructors = other.sortedConstructors :=
  mergeSort_eq_of_perm (fun c : ConstructorRecord => c.parameterTypes.length) h.constructors
    hdistinct.constructors

theorem classRows_eq (h : Reordered record other) (hdistinct : record.Distinct) (kind : TableKind)
    (source : String) : Table.classRows kind source record = Table.classRows kind source other := by
  cases kind with
  | methods => simp only [Table.classRows, h.reportableMethods_eq hdistinct, h.name_eq]
  | fields => simp only [Table.classRows, h.sortedFields_eq hdistinct, h.name_eq]
  | constructors => simp only [Table.classRows, h.sortedConstructors_eq hdistinct, h.name_eq]

theorem plain_eq (h : Reordered record other) : Listing.plain record = Listing.plain other := by
  simp only [Listing.plain, h.name_eq]

theorem verboseLines_eq (h : Reordered record other) (hdistinct : record.Distinct) :
    Listing.verboseLines record = Listing.verboseLines other := by
  have hhead : Listing.headLines record = Listing.headLines other := by
    rw [h.apart]
    rfl
  have hsimple : record.simpleName = other.simpleName := by
    simp only [simpleName, h.name_eq]
  simp only [Listing.verboseLines, hhead, hsimple, h.sortedFields_eq hdistinct,
    h.reportableMethods_eq hdistinct, h.sortedConstructors_eq hdistinct]

end Reordered

end ClassRecord

/-- The classes of an input, found in another order. -/
structure Reshuffled (classes others : List ClassRecord) : Prop where
  reordered : ∃ moved, classes.Perm moved ∧ List.Forall₂ ClassRecord.Reordered moved others
  names : (classes.map (·.name)).Nodup
  members : ∀ record ∈ classes, record.Distinct

theorem Reshuffled.isEmpty_eq {classes others : List ClassRecord}
    (h : Reshuffled classes others) :
    classes.isEmpty = others.isEmpty := by
  obtain ⟨moved, hperm, hmoved⟩ := h.reordered
  have hlength : classes.length = others.length := hperm.length_eq.trans hmoved.length_eq
  rw [Bool.eq_iff_iff, List.isEmpty_iff_length_eq_zero, List.isEmpty_iff_length_eq_zero, hlength]

namespace Run

variable {classes others : List ClassRecord} {settings : Settings} {input : String}

/-- Two lists of classes of which a report shows the same. -/
def Matched : List ClassRecord → List ClassRecord → Prop :=
  List.Forall₂ fun record other => record.Reordered other ∧ record.Distinct

theorem matched_select (h : Reshuffled classes others) (settings : Settings) :
    Matched (select settings classes) (select settings others) := by
  obtain ⟨moved, hperm, hmoved⟩ := h.reordered
  have hkept : (classes.filter fun c => settings.admits c.name).Perm
      (moved.filter fun c => settings.admits c.name) := hperm.filter _
  have hothers : List.Forall₂ ClassRecord.Reordered (moved.filter fun c => settings.admits c.name)
      (others.filter fun c => settings.admits c.name) := by
    refine List.rel_filter ?_ hmoved
    intro record other hreordered
    simp only [hreordered.name_eq]
  have hsorted : (select settings classes).Perm (classes.filter fun c => settings.admits c.name) :=
    List.mergeSort_perm _ _
  have hdistinct : ((select settings classes).map (·.name)).Nodup := by
    refine (hsorted.map ClassRecord.name).nodup_iff.mpr ?_
    exact h.names.sublist (List.filter_sublist.map ClassRecord.name)
  -- The other classes, one by one in the order of these: sorted too, so they are the other selection.
  obtain ⟨aligned, haligned, hselected⟩ := List.perm_comp_forall₂ (hsorted.trans hkept) hothers
  have hnames : (select settings classes).map ClassRecord.name = aligned.map ClassRecord.name :=
    map_eq_of_forall₂ haligned fun _ _ hreordered => hreordered.name_eq
  have hordered : aligned.Pairwise fun a b => a.name ≤ b.name := by
    have hpairs := List.pairwise_map.mpr (pairwise_mergeSort_key ClassRecord.name
      (classes.filter fun c => settings.admits c.name))
    have hsame := hnames ▸ hpairs
    exact List.pairwise_map.mp hsame
  have halone : aligned = select settings others :=
    eq_mergeSort_of_perm ClassRecord.name hordered hselected (hnames ▸ hdistinct)
  rw [← halone]
  refine ((List.forall₂_and_left _ _).mpr ⟨?_, haligned⟩).imp fun _ _ hboth => ⟨hboth.2, hboth.1⟩
  intro record hrecord
  exact h.members record (List.mem_of_mem_filter (hsorted.mem_iff.mp hrecord))

theorem Matched.rows_eq (h : Matched classes others) (kind : TableKind) (source : String) :
    Table.rows kind source classes = Table.rows kind source others := by
  have hrows := map_eq_of_forall₂ h fun _ _ hboth => hboth.1.classRows_eq hboth.2 kind source
  rw [Table.rows, Table.rows, List.flatMap, List.flatMap, hrows]

theorem Matched.listing_eq (h : Matched classes others) (settings : Settings) :
    listing settings classes = listing settings others := by
  refine congrArg List.flatten (map_eq_of_forall₂ h fun _ _ hboth => ?_)
  cases settings.isVerbose with
  | true => exact hboth.1.verboseLines_eq hboth.2
  | false => exact congrArg (fun line => [line]) hboth.1.plain_eq

theorem Matched.report_eq (h : Matched classes others) (settings : Settings) (input : String) :
    report settings input classes = report settings input others := by
  have hwrite : writeTarget settings input classes = writeTarget settings input others := by
    funext target
    simp only [writeTarget, Table.write, Table.bytes, Table.records, h.rows_eq]
  rw [report, report, h.length_eq, h.listing_eq, hwrite]

/-! ### Runs -/

/-- What two introspectors find in an input: the same failure, or the same classes in some order. -/
inductive Alike : Except Failure (List ClassRecord) → Except Failure (List ClassRecord) → Prop
  | failed (e : Failure) : Alike (.error e) (.error e)
  | found {classes others : List ClassRecord} (h : Reshuffled classes others) :
      Alike (.ok classes) (.ok others)

variable {introspector other : Introspector}

theorem introspect_bind_eq {β : Type} {next : List ClassRecord → Run β}
    (halike : ∀ files, Alike (introspector files input).result (other files input).result)
    (hlog : ∀ files, (introspector files input).log = (other files input).log)
    (hnext : ∀ classes others, Reshuffled classes others → next classes = next others) :
    introspect introspector input >>= next = introspect other input >>= next := by
  rw [introspect, introspect, bind_assoc, bind_assoc]
  refine bind_congr fun session => ?_
  have hfound := halike session.files
  simp only [hlog, bind_assoc]
  refine bind_congr fun _ => ?_
  generalize (introspector session.files input).result = result at hfound ⊢
  generalize (other session.files input).result = result' at hfound ⊢
  cases hfound with
  | failed e => rfl
  | found h =>
    simp only [pure_bind]
    exact hnext _ _ h

theorem processInput_reordered
    (halike : ∀ files, Alike (introspector files input).result (other files input).result)
    (hlog : ∀ files, (introspector files input).log = (other files input).log)
    (settings : Settings) :
    processInput introspector settings input = processInput other settings input := by
  rw [processInput, processInput]
  refine bind_congr fun session => bind_congr fun _ => ?_
  refine introspect_bind_eq halike hlog fun classes others h => ?_
  rw [h.isEmpty_eq, (matched_select h settings).report_eq]

theorem coupled_announce {L : Log → Log → Prop} (classes : List ClassRecord) :
    Coupled (Beside Eq L) (announce settings (some classes)) (announce settings (some classes)) := by
  rw [announce]
  cases settings.isQuiet with
  | true => exact coupled_pure ()
  | false =>
    refine coupled_prints fun console console' h => ?_
    rw [h]
    exact ⟨rfl, rfl⟩

theorem execute_eq_of_alike
    (halike : ∀ files input, Alike (introspector files input).result (other files input).result)
    (hlog : ∀ files input, (introspector files input).log = (other files input).log)
    (settings : Settings) (session : Session) :
    execute introspector settings session = execute other settings session := by
  have hprocess : processInput introspector settings = processInput other settings := by
    funext input
    exact processInput_reordered (fun files => halike files input) (fun files => hlog files input)
      settings
  rw [execute, processInputs, hprocess]
  rfl

/-- What an introspector logs shows in the log only. -/
theorem execute_beside
    (hresult : ∀ files input, (other files input).result = (introspector files input).result)
    (settings : Settings) (session : Session) :
    (execute other settings session).1 = (execute introspector settings session).1 ∧
      Beside Eq (fun _ _ => True) (execute introspector settings session).2
        (execute other settings session).2 := by
  have hgrows (lines lines' : Log) : Grows (fun _ _ => True) lines lines' := fun _ _ _ => trivial
  have hinputs : Coupled (Beside Eq fun _ _ => True) (processInputs introspector settings)
      (processInputs other settings) := by
    refine coupled_processInputs rfl (fun input => ?_) coupled_announce
    exact coupled_prepare (fun lines => hgrows lines lines) (fun files => hresult files input)
      (fun _ => hgrows _ _)
  exact hinputs ⟨rfl, rfl, rfl, trivial⟩

/-- Two runs whose introspectors find the same classes in other orders have the same result and leave the
same files and the same console. If the introspectors log the same, the runs are the same altogether. -/
theorem execute_reordered
    (halike : ∀ files input, Alike (introspector files input).result (other files input).result)
    (settings : Settings) (session : Session) :
    ((execute introspector settings session).1 = (execute other settings session).1 ∧
      (execute introspector settings session).2.console =
        (execute other settings session).2.console ∧
      (execute introspector settings session).2.files = (execute other settings session).2.files) ∧
    ((∀ files input, (introspector files input).log = (other files input).log) →
      execute introspector settings session = execute other settings session) := by
  refine ⟨?_, fun hlog => execute_eq_of_alike halike hlog settings session⟩
  -- Between the two stands an introspector that finds as the first and logs as the second.
  let middle : Introspector := fun files input =>
    ⟨(introspector files input).result, (other files input).log⟩
  have halike' : ∀ files input,
      Alike (middle files input).result (other files input).result := halike
  have hlog : ∀ files input, (middle files input).log = (other files input).log := fun _ _ => rfl
  have hfound : ∀ files input,
      (middle files input).result = (introspector files input).result := fun _ _ => rfl
  have hmiddle := execute_eq_of_alike halike' hlog settings session
  obtain ⟨hresult, hbeside⟩ := execute_beside hfound settings session
  rw [hmiddle] at hresult hbeside
  exact ⟨hresult.symm, hbeside.console, hbeside.files.symm⟩

/-! ### One package in two orders -/

section Shuffled

def alpha : FieldRecord := ⟨"alpha", "int", "private", false, []⟩

def beta : FieldRecord := ⟨"beta", "long", "static", true, ["p.Mark"]⟩

def method (name : String) : MethodRecord := ⟨name, "void", [], "public", false, [], []⟩

def maker (types : List String) : ConstructorRecord := ⟨types, "public", [], []⟩

def classOf (name : String) (fields : List FieldRecord) (methods : List MethodRecord)
    (constructors : List ConstructorRecord) : ClassRecord :=
  ⟨name, "p", .plainClass, none, [], fields, methods, constructors⟩

def inOneOrder : List ClassRecord :=
  [classOf "p.A" [alpha, beta] [method "lambda$0", method "run", method "lambda$0", method "end"]
      [maker [], maker ["int"]],
    classOf "p.B" [] [] []]

def inAnother : List ClassRecord :=
  [classOf "p.B" [] [] [],
    classOf "p.A" [beta, alpha] [method "end", method "run", method "lambda$0", method "lambda$0"]
      [maker ["int"], maker []]]

theorem reshuffled_inAnother : Reshuffled inOneOrder inAnother where
  reordered := by
    refine ⟨inOneOrder.reverse, .swap _ _ _, .cons ?_ (.cons ?_ .nil)⟩
    · exact ⟨rfl, .refl _, .refl _, .refl _⟩
    · exact ⟨rfl, by decide, by decide, by decide⟩
  names := by decide
  members := by
    refine List.forall_mem_cons.mpr ⟨⟨by decide, by decide, by decide⟩, ?_⟩
    exact List.forall_mem_cons.mpr ⟨⟨by decide, by decide, by decide⟩, nofun⟩

def shownInFull : Settings where
  inputs := ["a.jar", "b.jar"]
  isVerbose := true
  isQuiet := false
  packages := []
  targets := [⟨.fields, "d/fields.csv"⟩, ⟨.constructors, "d/makers.csv"⟩]
  style := .standard

theorem execute_inAnother :
    execute (fun _ _ => ⟨.ok inOneOrder, []⟩) shownInFull
        (.start ⟨[(["d"], .directory)], []⟩ (some 100)) =
      execute (fun _ _ => ⟨.ok inAnother, []⟩) shownInFull
        (.start ⟨[(["d"], .directory)], []⟩ (some 100)) :=
  (execute_reordered (fun _ _ => .found reshuffled_inAnother) shownInFull _).2 fun _ _ => rfl

end Shuffled

end Run

end ClassReport
