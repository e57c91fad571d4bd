import ClassReport.Proofs.PathNames
import ClassReport.Proofs.WholeTypes

/-!
# Cells of parameter annotations

The annotations of all parameters of a member stand in one cell: a semicolon between two parameters, a
bar between two annotations of one. Names that come from descriptors are never empty and have no
semicolon, so that the cell falls back into one piece for each parameter; without bars in the names it
is read back whole, unless no parameter has an annotation (`joinGroups_reads_back`).
-/

namespace ClassReport

/-! ### Texts that are split and joined -/

namespace Segment

variable {separator : Char}

/-- The pieces of a text between the separators. -/
def pieces (separator : Char) (text : String) : List String :=
  (split (· == separator) text.toList).map String.ofList

theorem pieces_of_free {text : String} (h : separator ∉ text.toList) :
    pieces separator text = [text] := by
  have hfree : ∀ c ∈ text.toList, (c == separator) = false := by
    intro c hc
    rw [beq_eq_false_iff_ne]
    rintro rfl
    exact h hc
  rw [pieces, split_of_free hfree, List.map_singleton, String.ofList_toList]

theorem pieces_append {text rest : String} (h : separator ∉ text.toList) :
    pieces separator (text ++ String.singleton separator ++ rest) =
      text :: pieces separator rest := by
  have hchars : (text ++ String.singleton separator ++ rest).toList =
      text.toList ++ separator :: rest.toList := by simp
  have hsplit : split (· == separator) (text.toList ++ separator :: rest.toList) =
      split (· == separator) text.toList ++ split (· == separator) rest.toList :=
    split_append (beq_self_eq_true separator)
  have hfirst := pieces_of_free h
  rw [pieces] at hfirst
  rw [pieces, hchars, hsplit, List.map_append, hfirst]
  rfl

/-- What was joined with a separator that no text has is split into the same texts. -/
theorem pieces_intercalate {texts : List String} (hne : texts ≠ [])
    (hfree : ∀ text ∈ texts, separator ∉ text.toList) :
    pieces separator ((String.singleton separator).intercalate texts) = texts := by
  induction texts with
  | nil => exact absurd rfl hne
  | cons text texts ih =>
    obtain ⟨hfirst, hrest⟩ := List.forall_mem_cons.mp hfree
    cases texts with
    | nil =>
      rw [String.intercalate_singleton]
      exact pieces_of_free hfirst
    | cons next texts =>
      rw [String.intercalate_cons_cons, pieces_append hfirst, ih (List.cons_ne_nil _ _) hrest]

end Segment

/-! ### The words for a type -/

namespace Signature

variable {cs : List Char} {r : String}

theorem append_ne_empty {first second : String} (h : first ≠ "" ∨ second ≠ "") :
    first ++ second ≠ "" := by
  intro hempty
  obtain ⟨hfirst, hsecond⟩ := String.append_eq_empty_iff.mp hempty
  rcases h with h | h
  · exact h hfirst
  · exact h hsecond

theorem SegmentForm.words_ne_empty (h : SegmentForm cs r) : r ≠ "" := by
  have hdotted {name : List Char} (hname : SegmentName name) :
      binaryName (String.ofList name) ≠ "" := by
    rw [binaryName_ofList, Ne, String.ofList_eq_empty_iff, List.map_eq_nil_iff]
    exact hname.ne_nil
  cases h with
  | plain hname => exact hdotted hname
  | generic hname _ => exact append_ne_empty (Or.inl (hdotted hname))

theorem SegmentsForm.words_ne_empty {rs : List String} (h : SegmentsForm cs rs) :
    "$".intercalate rs ≠ "" := by
  cases h with
  | last hfirst =>
    rw [String.intercalate_singleton]
    exact hfirst.words_ne_empty
  | @more _ _ first others hfirst _ =>
    cases others with
    | nil =>
      rw [String.intercalate_singleton]
      exact hfirst.words_ne_empty
    | cons next others =>
      rw [String.intercalate_cons_cons]
      exact append_ne_empty (Or.inl (append_ne_empty (Or.inl hfirst.words_ne_empty)))

theorem TypeForm.words_ne_empty (h : TypeForm cs r) : r ≠ "" := by
  cases h with
  | primitive p => cases p <;> decide
  | array _ => exact append_ne_empty (Or.inr (by decide))
  | «variable» hne _ => rwa [Ne, String.ofList_eq_empty_iff]
  | object h => exact h.words_ne_empty

end Signature

/-! ### Names and groups of names -/

/-- The name of an annotation whose descriptor can be read as a type. -/
def IsAnnotationName (name : String) : Prop :=
  ∃ descriptor type, renderFieldType descriptor = .ok type ∧ annotationName descriptor = name

variable {name : String} {groups : List (List String)}

theorem annotationName_form {descriptor type : String} (h : renderFieldType descriptor = .ok type) :
    ∃ front, Signature.TypeForm front (annotationName descriptor) := by
  obtain ⟨front, -, -, hform⟩ := Signature.renderFieldType_eq_ok_iff.mp h
  rw [Signature.annotationName_of_ok h]
  exact ⟨front, hform⟩

theorem isAnnotationName_of_read {descriptor : String} (h : renderFieldType descriptor = .ok name) :
    IsAnnotationName name := ⟨descriptor, name, h, Signature.annotationName_of_ok h⟩

theorem IsAnnotationName.ne_empty (h : IsAnnotationName name) : name ≠ "" := by
  obtain ⟨descriptor, type, hread, rfl⟩ := h
  obtain ⟨front, hform⟩ := annotationName_form hread
  exact hform.words_ne_empty

theorem IsAnnotationName.free (h : IsAnnotationName name) : ';' ∉ name.toList := by
  obtain ⟨descriptor, type, hread, rfl⟩ := h
  obtain ⟨front, hform⟩ := annotationName_form hread
  exact hform.notMem

/-- Groups of names of annotations, one for each parameter. -/
def AreNamed (groups : List (List String)) : Prop :=
  ∀ group ∈ groups, ∀ name ∈ group, IsAnnotationName name

/-- No name has the character that stands between two names. -/
def AreUnbarred (groups : List (List String)) : Prop :=
  ∀ group ∈ groups, ∀ name ∈ group, '|' ∉ name.toList

/-- Some parameter has an annotation. -/
def CarriesNames (groups : List (List String)) : Prop := ∃ group ∈ groups, group ≠ []

/-- The names in the piece of a parameter, which is empty if there are none. -/
def namesOfPiece (piece : String) : List String :=
  if piece = "" then [] else Segment.pieces '|' piece

namespace Table

theorem joinAnnotations_eq_empty_iff {group : List String} (h : ∀ name ∈ group, name ≠ "") :
    joinAnnotations group = "" ↔ group = [] := by
  cases group with
  | nil => exact iff_of_true rfl rfl
  | cons name names =>
    have hname := h name List.mem_cons_self
    refine iff_of_false ?_ (List.cons_ne_nil _ _)
    rw [joinAnnotations]
    cases names with
    | nil => rwa [String.intercalate_singleton]
    | cons next names =>
      rw [String.intercalate_cons_cons]
      exact Signature.append_ne_empty (Or.inl (Signature.append_ne_empty (Or.inl hname)))

theorem semicolon_notMem_joinAnnotations {group : List String}
    (h : ∀ name ∈ group, ';' ∉ name.toList) : ';' ∉ (joinAnnotations group).toList :=
  Signature.semicolon_notMem_intercalate (by decide) h

theorem namesOfPiece_joinAnnotations {group : List String} (hne : ∀ name ∈ group, name ≠ "")
    (hfree : ∀ name ∈ group, '|' ∉ name.toList) : namesOfPiece (joinAnnotations group) = group := by
  by_cases hgroup : group = []
  · rw [hgroup]
    rfl
  · rw [namesOfPiece, if_neg (fun h => hgroup ((joinAnnotations_eq_empty_iff hne).mp h))]
    exact Segment.pieces_intercalate hgroup hfree

theorem joinGroups_of_carries (h : CarriesNames groups) :
    joinGroups groups = ";".intercalate (groups.map joinAnnotations) := by
  obtain ⟨group, hmem, hne⟩ := h
  rw [joinGroups, if_neg]
  intro hall
  exact hne (List.isEmpty_iff.mp (List.all_eq_true.mp hall group hmem))

theorem pieces_joinGroups (hnamed : AreNamed groups) (h : CarriesNames groups) :
    Segment.pieces ';' (joinGroups groups) = groups.map joinAnnotations := by
  have hgroups : groups ≠ [] := by
    obtain ⟨group, hmem, -⟩ := h
    exact List.ne_nil_of_mem hmem
  rw [joinGroups_of_carries h]
  refine Segment.pieces_intercalate (by simpa using hgroups) ?_
  intro piece hpiece
  obtain ⟨group, hgroup, rfl⟩ := List.mem_map.mp hpiece
  exact semicolon_notMem_joinAnnotations fun name hname => (hnamed group hgroup name hname).free

theorem map_namesOfPiece_pieces (hnamed : AreNamed groups) (h : CarriesNames groups)
    (hunbarred : AreUnbarred groups) :
    (Segment.pieces ';' (joinGroups groups)).map namesOfPiece = groups := by
  rw [pieces_joinGroups hnamed h, List.map_map]
  refine (List.map_congr_left fun group hgroup => ?_).trans (List.map_id groups)
  exact namesOfPiece_joinAnnotations (fun name hname => (hnamed group hgroup name hname).ne_empty)
    (hunbarred group hgroup)

theorem joinGroups_eq_empty_iff (hnamed : AreNamed groups) :
    joinGroups groups = "" ↔ ∀ group ∈ groups, group = [] := by
  constructor
  · intro hempty group hgroup
    by_cases hgroup' : group = []
    · exact hgroup'
    -- The empty text has one piece, and that is then the piece of the group that has names.
    have hpieces := pieces_joinGroups hnamed ⟨group, hgroup, hgroup'⟩
    have hpiece : joinAnnotations group ∈ Segment.pieces ';' "" := by
      rw [← hempty, hpieces]
      exact List.mem_map_of_mem hgroup
    have hblank : joinAnnotations group = "" := by
      simpa [Segment.pieces, Segment.split] using hpiece
    have hnames : ∀ name ∈ group, name ≠ "" := fun name hname =>
      (hnamed group hgroup name hname).ne_empty
    exact (joinAnnotations_eq_empty_iff hnames).mp hblank
  · intro hall
    rw [joinGroups, if_pos (List.all_eq_true.mpr fun group hgroup => by simp [hall group hgroup])]

/-- The name of an annotation with a readable descriptor is not empty and has no semicolon. A cell of
groups of such names is empty where no group has a name, and otherwise falls into one piece for each
group; names without bars are read back from the pieces, and then no other groups have that cell. -/
theorem joinGroups_reads_back :
    (∀ descriptor type : String, renderFieldType descriptor = .ok type →
      annotationName descriptor ≠ "" ∧ ';' ∉ (annotationName descriptor).toList) ∧
    ∀ groups : List (List String), AreNamed groups →
      (joinGroups groups = "" ↔ ∀ group ∈ groups, group = []) ∧
      (CarriesNames groups →
        (Segment.pieces ';' (joinGroups groups)).length = groups.length ∧
        (AreUnbarred groups →
          (Segment.pieces ';' (joinGroups groups)).map namesOfPiece = groups ∧
          ∀ others : List (List String), AreNamed others → CarriesNames others →
            AreUnbarred others → joinGroups others = joinGroups groups → others = groups)) := by
  constructor
  · intro descriptor type hread
    have hname : IsAnnotationName (annotationName descriptor) := ⟨descriptor, type, hread, rfl⟩
    exact ⟨hname.ne_empty, hname.free⟩
  · intro groups hnamed
    refine ⟨joinGroups_eq_empty_iff hnamed, fun hcarries => ⟨?_, fun hunbarred => ?_⟩⟩
    · rw [pieces_joinGroups hnamed hcarries, List.length_map]
    · have hback := map_namesOfPiece_pieces hnamed hcarries hunbarred
      refine ⟨hback, fun others hnamed' hcarries' hunbarred' hsame => ?_⟩
      rw [← map_namesOfPiece_pieces hnamed' hcarries' hunbarred', hsame, hback]

/-- Four parameters, of which the first and the third have no annotation. -/
def marked : List (List String) := [[], ["a.Mark"], [], ["b.Outer<?>$Inner", "int[]"]]

-- Equality of texts can be decided by evaluation, that of what a reader gives cannot.
theorem read_of_toOption {descriptor type : String}
    (h : (renderFieldType descriptor).toOption = some type) :
    renderFieldType descriptor = .ok type := by
  cases hread : renderFieldType descriptor with
  | error e =>
    rw [hread] at h
    cases h
  | ok found =>
    rw [hread] at h
    cases h
    rfl

theorem read_inner : renderFieldType "Lb/Outer<*>.Inner;" = .ok "b.Outer<?>$Inner" :=
  read_of_toOption (by decide +kernel)

theorem areNamed_marked : AreNamed marked := by
  have hclass : renderFieldType "La/Mark;" = .ok "a.Mark" := read_of_toOption (by decide +kernel)
  have harray : renderFieldType "[I" = .ok "int[]" :=
    Signature.renderFieldType_of_form (.array (.primitive .int))
  have hmark := isAnnotationName_of_read hclass
  have hinner := isAnnotationName_of_read read_inner
  have hnumbers := isAnnotationName_of_read harray
  simp [AreNamed, marked, hmark, hinner, hnumbers]

theorem joinGroups_reads_back_marked :
    (annotationName "Lb/Outer<*>.Inner;" ≠ "" ∧ ';' ∉ (annotationName "Lb/Outer<*>.Inner;").toList) ∧
    AreNamed marked ∧ CarriesNames marked ∧ AreUnbarred marked ∧
    joinGroups marked = ";a.Mark;;b.Outer<?>$Inner|int[]" ∧
    (Segment.pieces ';' ";a.Mark;;b.Outer<?>$Inner|int[]").length = 4 ∧
    (Segment.pieces ';' ";a.Mark;;b.Outer<?>$Inner|int[]").map namesOfPiece = marked ∧
    joinGroups (marked ++ [[]]) ≠ joinGroups marked := by
  have hcarries : CarriesNames marked := ⟨["a.Mark"], by decide, by decide⟩
  have hunbarred : AreUnbarred marked := by unfold AreUnbarred; decide
  have hcell : joinGroups marked = ";a.Mark;;b.Outer<?>$Inner|int[]" := by decide
  obtain ⟨hname, hgroups⟩ := joinGroups_reads_back
  obtain ⟨-, hpieces⟩ := hgroups marked areNamed_marked
  obtain ⟨hlength, hback⟩ := hpieces hcarries
  obtain ⟨hsame, hothers⟩ := hback hunbarred
  rw [hcell] at hlength hsame
  refine ⟨hname _ _ read_inner,
    areNamed_marked, hcarries, hunbarred, hcell, hlength, hsame, fun heq => ?_⟩
  have hlonger := hothers (marked ++ [[]]) ?_ ?_ ?_ heq
  · exact absurd hlonger (by decide)
  · intro group hgroup name hname
    rcases List.mem_append.mp hgroup with hgroup | hgroup
    · exact areNamed_marked group hgroup name hname
    · rw [List.mem_singleton.mp hgroup] at hname
      cases hname
  · exact ⟨["a.Mark"], by decide, by decide⟩
  · unfold AreUnbarred
    decide

end Table

end ClassReport
