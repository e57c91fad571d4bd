import ClassReport.Proofs.StableSorting
import ClassReport.Proofs.TextOrder
import ClassReport.Run

/-!
# What a report shows, and in which order

Fields, methods and classes come by the bytes of their names and constructors by their number of parameters;
what has the same key comes as it was declared or found. Nothing is lost and nothing is repeated: there is
all that is not excluded by its name (`stablySorted_report`). Longer package filters keep fewer classes, and
those in the same order.
-/

namespace ClassReport

/-! ### Names that a report leaves out -/

/-- The name of a method that is no constructor, no initialiser and no body of a lambda expression. -/
def IsReported (name : String) : Prop :=
  name ≠ "<init>" ∧ name ≠ "<clinit>" ∧ ¬ "lambda$".toList <:+: name.toList

instance (name : String) : Decidable (IsReported name) :=
  inferInstanceAs (Decidable (_ ∧ _ ∧ ¬ _))

theorem occursIn_iff {part chars : List Char} :
    Segment.occursIn part chars = true ↔ part <:+: chars := by
  induction chars with
  | nil => rw [Segment.occursIn, List.isEmpty_iff, List.infix_nil]
  | cons c chars ih =>
    rw [Segment.occursIn, Bool.or_eq_true, List.isPrefixOf_iff_prefix, ih, List.infix_cons_iff]

theorem isReportableMethod_eq (name : String) :
    isReportableMethod name = decide (IsReported name) := by
  have hpart : Segment.contains "lambda$" name = true ↔ "lambda$".toList <:+: name.toList :=
    occursIn_iff
  rw [Bool.eq_iff_iff, decide_eq_true_eq, isReportableMethod, IsReported, ← hpart]
  simp [and_assoc]

/-- Longer filters admit fewer names. -/
theorem IsAdmitted.widen {narrow wide : List String} {name : String} (hnarrow : narrow ≠ [])
    (hextends : ∀ start ∈ narrow, ∃ shorter ∈ wide, shorter.toList <+: start.toList)
    (h : IsAdmitted narrow name) : IsAdmitted wide name := by
  rcases h with hnil | ⟨start, hstart, hname⟩
  · exact absurd hnil hnarrow
  · obtain ⟨shorter, hshorter, hlonger⟩ := hextends start hstart
    exact Or.inr ⟨shorter, hshorter, hlonger.trans hname⟩

/-! ### Reports -/

theorem stablySorted_names {α : Type} (name : α → String) (items : List α) :
    StablySorted (fun a => utf8Bytes (name a)) items
      (items.mergeSort fun a b => decide (name a ≤ name b)) := by
  refine (stablySorted_mergeSort name items).rekey ?_ fun _ _ => Utf8Order.utf8_inj
  intro a b hle
  rw [← List.not_lt, Utf8Order.utf8_lt_iff]
  exact hle

namespace Run

variable {settings : Settings} {classes : List ClassRecord}

/-- Which classes are kept does not change their order. -/
theorem select_eq_filter (settings : Settings) (classes : List ClassRecord) :
    select settings classes =
      (classes.mergeSort fun a b => decide (a.name ≤ b.name)).filter
        fun c => settings.admits c.name :=
  (stablySorted_mergeSort ClassRecord.name _).unique
    ((stablySorted_mergeSort ClassRecord.name classes).filter _)

theorem select_sublist {packages others : List String}
    (h : ∀ name, IsAdmitted packages name → IsAdmitted others name) (settings : Settings)
    (classes : List ClassRecord) :
    (select { settings with packages := packages } classes).Sublist
      (select { settings with packages := others } classes) := by
  rw [select_eq_filter, select_eq_filter]
  refine List.monotone_filter_right _ fun c hc => ?_
  rw [Settings.admits_eq, decide_eq_true_eq] at hc ⊢
  exact h c.name hc

/-- A report shows all fields, all constructors, the methods and the classes that are not left out by their
name, in the order of the bytes of their names or of the numbers of parameters, and equal ones in the order
in which they stood. If every package filter is longer than some filter of others, fewer classes are kept. -/
theorem stablySorted_report (record : ClassRecord) (settings : Settings)
    (classes : List ClassRecord) :
    StablySorted (fun f => utf8Bytes f.name) record.fields record.sortedFields ∧
    StablySorted (fun m => utf8Bytes m.name) (record.methods.filter fun m => IsReported m.name)
      record.reportableMethods ∧
    StablySorted (fun c => c.parameterTypes.length) record.constructors record.sortedConstructors ∧
    StablySorted (fun c => utf8Bytes c.name)
      (classes.filter fun c => IsAdmitted settings.packages c.name) (select settings classes) ∧
    ∀ narrow wide : List String, narrow ≠ [] →
      (∀ start ∈ narrow, ∃ shorter ∈ wide, shorter.toList <+: start.toList) →
      (select { settings with packages := narrow } classes).Sublist
        (select { settings with packages := wide } classes) ∧
      (select { settings with packages := wide } classes).Sublist
        (select { settings with packages := [] } classes) := by
  refine ⟨stablySorted_names FieldRecord.name _, ?_,
    stablySorted_mergeSort (fun c : ConstructorRecord => c.parameterTypes.length) _, ?_, ?_⟩
  · simp only [← isReportableMethod_eq]
    exact stablySorted_names MethodRecord.name _
  · simp only [← Settings.admits_eq]
    exact stablySorted_names ClassRecord.name _
  · intro narrow wide hnarrow hextends
    refine ⟨select_sublist (fun name => IsAdmitted.widen hnarrow hextends) settings classes, ?_⟩
    exact select_sublist (fun name _ => Or.inl rfl) settings classes

def emptyClass (name : String) (kind : ClassKind) : ClassRecord :=
  ⟨name, packageOf name, kind, none, [], [], [], []⟩

/-- Two classes of one name among others, and two names that units of UTF-16 would put the other way. -/
def catalogue : List ClassRecord :=
  [emptyClass "b.X" .plainClass, emptyClass "a.b.Z" .interface, emptyClass "a.b.Z" .enumeration,
    emptyClass "a.～" .plainClass, emptyClass "a.😀" .plainClass]

def restricted (packages : List String) : Settings :=
  ⟨[], false, false, packages, [], .standard⟩

theorem stablySorted_report_catalogue :
    (["a.～", "a.😀"] ≠ [] ∧
      ∀ start ∈ ["a.～", "a.😀"], ∃ shorter ∈ ["a."], shorter.toList <+: start.toList) ∧
    select (restricted ["a.～", "a.😀"]) catalogue =
      [emptyClass "a.～" .plainClass, emptyClass "a.😀" .plainClass] ∧
    (select (restricted ["a.～", "a.😀"]) catalogue).Sublist (select (restricted ["a."]) catalogue) ∧
    (select (restricted ["a."]) catalogue).Sublist (select (restricted []) catalogue) := by
  have hextends : ∀ start ∈ ["a.～", "a.😀"], ∃ shorter ∈ ["a."],
      shorter.toList <+: start.toList := by decide
  obtain ⟨-, -, -, -, hkept⟩ := stablySorted_report (emptyClass "a.C" .plainClass) (restricted []) catalogue
  have hselected : select (restricted ["a.～", "a.😀"]) catalogue =
      [emptyClass "a.～" .plainClass, emptyClass "a.😀" .plainClass] :=
    List.mergeSort_of_pairwise (by decide)
  exact ⟨⟨by decide, hextends⟩, hselected, hkept _ _ (by decide) hextends⟩

end Run

end ClassReport
