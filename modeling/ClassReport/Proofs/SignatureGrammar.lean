import ClassReport.Signature.Parser

/-!
# The grammar of types

`TypeForm` is the grammar of descriptors and generic signatures: which characters are a type, and
how Java source writes it. The reader of types takes a piece off the front exactly where that piece
is a type of the grammar, and no two types start alike (`type_iff_form`). Soundness is by induction
on the tree that was read (`form_of_type`), completeness by induction on the grammar (`type_of_form`).
-/

namespace ClassReport

namespace Signature

/-! ### The grammar -/

structure SegmentName (name : List Char) : Prop where
  ne_nil : name ≠ []
  free : ∀ c ∈ name, c ≠ ';' ∧ c ≠ '<' ∧ c ≠ '.'

mutual
/-- The characters are a type, and Java source writes it in this way. -/
inductive TypeForm : List Char → String → Prop
  | primitive (p : Primitive) : TypeForm [p.letter] p.keyword
  | array {cs : List Char} {r : String} (h : TypeForm cs r) : TypeForm ('[' :: cs) (r ++ "[]")
  | variable {name : List Char} (hne : name ≠ []) (hfree : ';' ∉ name) :
      TypeForm ('T' :: (name ++ [';'])) (String.ofList name)
  | object {cs : List Char} {rs : List String} (h : SegmentsForm cs rs) :
      TypeForm ('L' :: (cs ++ [';'])) ("$".intercalate rs)
/-- One or more segments with dots between them, and the words for each. -/
inductive SegmentsForm : List Char → List String → Prop
  | last {cs : List Char} {r : String} (h : SegmentForm cs r) : SegmentsForm cs [r]
  | more {cs others : List Char} {r : String} {rs : List String} (h : SegmentForm cs r)
      (hs : SegmentsForm others rs) : SegmentsForm (cs ++ '.' :: others) (r :: rs)
/-- A class, with or without type arguments. -/
inductive SegmentForm : List Char → String → Prop
  | plain {name : List Char} (hname : SegmentName name) :
      SegmentForm name (binaryName (String.ofList name))
  | generic {name cs : List Char} {rs : List String} (hname : SegmentName name)
      (h : ArgumentsForm cs rs) :
      SegmentForm (name ++ '<' :: (cs ++ ['>']))
        (binaryName (String.ofList name) ++ ("<" ++ ", ".intercalate rs ++ ">"))
/-- Any number of type arguments, and the words for each. -/
inductive ArgumentsForm : List Char → List String → Prop
  | nil : ArgumentsForm [] []
  | wildcard {cs : List Char} {rs : List String} (h : ArgumentsForm cs rs) :
      ArgumentsForm ('*' :: cs) ("?" :: rs)
  | extends {ts cs : List Char} {r : String} {rs : List String} (ht : TypeForm ts r)
      (h : ArgumentsForm cs rs) : ArgumentsForm ('+' :: (ts ++ cs)) (("? extends " ++ r) :: rs)
  | super {ts cs : List Char} {r : String} {rs : List String} (ht : TypeForm ts r)
      (h : ArgumentsForm cs rs) : ArgumentsForm ('-' :: (ts ++ cs)) (("? super " ++ r) :: rs)
  | exact {ts cs : List Char} {r : String} {rs : List String} (ht : TypeForm ts r)
      (h : ArgumentsForm cs rs) : ArgumentsForm (ts ++ cs) (r :: rs)
end

/-! ### Steps of the readers -/

def type? (cs : List Char) : Option (JavaType × List Char) := (type cs).map Subtype.val

def classType? (cs : List Char) : Option (ClassType × List Char) := (classType cs).map Subtype.val

def typeArguments? (cs : List Char) : Option (TypeArguments × List Char) :=
  (typeArguments cs).map Subtype.val

def argumentList? (cs : List Char) : Option (ArgumentList × List Char) :=
  (argumentList cs).map Subtype.val

theorem parse?_eq (cs : List Char) : JavaType.parse? cs = (type? cs).map Prod.fst := by
  rw [JavaType.parse?, type?, Option.map_map]
  rfl

theorem type?_nil : type? [] = none := by
  rw [type?, type]
  rfl

theorem type?_array (rest : List Char) :
    type? ('[' :: rest) = (type? rest).map fun got => (.array got.1, got.2) := by
  rw [type?, type, type?]
  cases type rest <;> rfl

theorem type?_object (rest : List Char) :
    type? ('L' :: rest) = (classType? rest).map fun got => (.object got.1, got.2) := by
  rw [type?, type, classType?]
  cases classType rest <;> rfl

theorem type?_variable (rest : List Char) :
    type? ('T' :: rest) =
      if upTo (· == ';') rest = [] ∨ since (· == ';') rest = [] then none
      else some (.variable (upTo (· == ';') rest), (since (· == ';') rest).tail) := by
  rw [type?, type]
  split <;> rfl

theorem type?_letter {c : Char} (ha : c ≠ '[') (ho : c ≠ 'L') (hv : c ≠ 'T') (rest : List Char) :
    type? (c :: rest) = (Primitive.ofLetter? c).map fun p => (.primitive p, rest) := by
  rw [type?, type]
  · cases Primitive.ofLetter? c <;> rfl
  all_goals simp_all

/-- A class type whose first segment has been read: it ends here, or another segment follows. -/
def afterSegment (name : List Char) (arguments : TypeArguments) :
    List Char → Option (ClassType × List Char)
  | ';' :: left => some (.innermost name arguments, left)
  | '.' :: more => (classType? more).map fun inner => (.enclosing name arguments inner.1, inner.2)
  | _ => none

theorem classType?_eq (cs : List Char) :
    classType? cs =
      if upTo endsSegment cs = [] then none
      else (typeArguments? (since endsSegment cs)).bind fun got =>
        afterSegment (upTo endsSegment cs) got.1 got.2 := by
  rw [classType?, classType]
  split
  · rfl
  · rw [typeArguments?]
    cases typeArguments (since endsSegment cs) with
    | none => rfl
    | some got =>
      obtain ⟨⟨arguments, rest⟩, h⟩ := got
      match rest with
      | [] => rfl
      | c :: more =>
        by_cases hc : c = ';'
        · subst hc
          rfl
        · by_cases hd : c = '.'
          · subst hd
            simp only [List.head?_cons, Option.some.injEq, hc, if_false, if_true, List.tail_cons,
              Option.map_some, Option.bind_some, afterSegment, classType?]
            cases classType more <;> rfl
          · simp [hc, hd, afterSegment]

theorem typeArguments?_some (rest : List Char) :
    typeArguments? ('<' :: rest) = (argumentList? rest).map fun got => (.some got.1, got.2) := by
  rw [typeArguments?, typeArguments, argumentList?]
  cases argumentList rest <;> rfl

theorem typeArguments?_none {cs : List Char} (h : cs.head? ≠ some '<') :
    typeArguments? cs = some (.none, cs) := by
  rw [typeArguments?, typeArguments]
  · rfl
  · rintro rest rfl
    exact h rfl

theorem argumentList?_nil (rest : List Char) : argumentList? ('>' :: rest) = some (.nil, rest) := by
  rw [argumentList?, argumentList]
  rfl

theorem argumentList?_wildcard (rest : List Char) :
    argumentList? ('*' :: rest) = (argumentList? rest).map fun got => (.wildcard got.1, got.2) := by
  rw [argumentList?, argumentList, argumentList?]
  cases argumentList rest <;> rfl

theorem argumentList?_bounded {cs : List Char} (hn : cs.head? ≠ some '>') (hw : cs.head? ≠ some '*') :
    argumentList? cs = (type? (bound cs).2).bind fun got => (argumentList? got.2).map fun others =>
      (.bounded (bound cs).1 got.1 others.1, others.2) := by
  rw [argumentList?, argumentList, type?]
  · cases type (bound cs).2 with
    | none => rfl
    | some got =>
      obtain ⟨⟨bounding, rest⟩, h⟩ := got
      simp only [argumentList?, Option.map_some, Option.bind_some]
      cases argumentList rest <;> rfl
  · rintro rest rfl
    exact hn rfl
  · rintro rest rfl
    exact hw rfl

/-! ### What was read -/

variable {cs rest : List Char}

theorem letter_of_ofLetter? {c : Char} {p : Primitive} (h : Primitive.ofLetter? c = some p) :
    c = p.letter := by
  have hfound := List.find?_some h
  exact (beq_iff_eq.mp hfound).symm

/-- The characters up to the first that stops do not stop, and the rest begins with one that does. -/
theorem stops_since (stop : Char → Bool) (cs : List Char) :
    (∀ c ∈ upTo stop cs, stop c = false) ∧ ∀ c ∈ (since stop cs).head?, stop c = true := by
  induction cs with
  | nil => simp [upTo, since]
  | cons c cs ih =>
    cases hc : stop c with
    | true => simp [upTo, since, hc]
    | false => simpa [upTo, since, hc] using ih

theorem upTo_append {stop : Char → Bool} {name tail : List Char} (hname : ∀ c ∈ name, stop c = false)
    (htail : ∀ c ∈ tail.head?, stop c = true) :
    upTo stop (name ++ tail) = name ∧ since stop (name ++ tail) = tail := by
  induction name with
  | nil =>
    cases tail with
    | nil => simp [upTo, since]
    | cons c tail =>
      have hc : stop c = true := htail c rfl
      simp [upTo, since, hc]
  | cons c name ih =>
    have hc : stop c = false := hname c List.mem_cons_self
    obtain ⟨hup, hsince⟩ := ih fun d hd => hname d (List.mem_cons_of_mem _ hd)
    simpa [upTo, since, hc] using And.intro hup hsince

theorem endsSegment_iff {c : Char} : endsSegment c = true ↔ c = ';' ∨ c = '<' ∨ c = '.' := by
  simp [endsSegment, or_assoc]

theorem segmentName_iff {name : List Char} :
    SegmentName name ↔ name ≠ [] ∧ ∀ c ∈ name, endsSegment c = false := by
  have hone (c : Char) : endsSegment c = false ↔ c ≠ ';' ∧ c ≠ '<' ∧ c ≠ '.' := by
    rw [← Bool.not_eq_true, endsSegment_iff, not_or, not_or]
  simp only [hone]
  exact ⟨fun h => ⟨h.ne_nil, h.free⟩, fun h => ⟨h.1, h.2⟩⟩

theorem type?_eq_some {type : JavaType} (h : type? cs = some (type, rest)) :
    match type with
    | .primitive p => cs = p.letter :: rest
    | .variable name => name ≠ [] ∧ ';' ∉ name ∧ cs = 'T' :: (name ++ ';' :: rest)
    | .array element => ∃ inner, cs = '[' :: inner ∧ type? inner = some (element, rest)
    | .object named => ∃ inner, cs = 'L' :: inner ∧ classType? inner = some (named, rest) := by
  cases cs with
  | nil =>
    rw [type?_nil] at h
    cases h
  | cons c inner =>
    by_cases ha : c = '['
    · subst ha
      rw [type?_array] at h
      obtain ⟨⟨element, left⟩, hinner, heq⟩ := Option.map_eq_some_iff.mp h
      cases heq
      exact ⟨inner, rfl, hinner⟩
    by_cases ho : c = 'L'
    · subst ho
      rw [type?_object] at h
      obtain ⟨⟨named, left⟩, hinner, heq⟩ := Option.map_eq_some_iff.mp h
      cases heq
      exact ⟨inner, rfl, hinner⟩
    by_cases hv : c = 'T'
    · subst hv
      rw [type?_variable] at h
      split at h
      · cases h
      · rename_i hfull
        rw [not_or] at hfull
        obtain ⟨hfree, hstop⟩ := stops_since (· == ';') inner
        obtain ⟨d, tail, hsince⟩ := List.exists_cons_of_ne_nil hfull.2
        have hd : d = ';' := beq_iff_eq.mp (hstop d (by rw [hsince]; rfl))
        have hinner := upTo_append_since (· == ';') inner
        cases h
        rw [hsince, hd] at hinner
        refine ⟨hfull.1, ?_, ?_⟩
        · intro hmem
          exact absurd (hfree _ hmem) (by decide)
        · rw [hsince, List.tail_cons, hinner]
    · rw [type?_letter ha ho hv] at h
      obtain ⟨p, hp, heq⟩ := Option.map_eq_some_iff.mp h
      cases heq
      exact congrArg (· :: rest) (letter_of_ofLetter? hp)

theorem classType?_eq_some {type : ClassType} (h : classType? cs = some (type, rest)) :
    match type with
    | .innermost name arguments => SegmentName name ∧ ∃ tail, cs = name ++ tail ∧
        typeArguments? tail = some (arguments, ';' :: rest)
    | .enclosing name arguments inner => SegmentName name ∧ ∃ tail more, cs = name ++ tail ∧
        typeArguments? tail = some (arguments, '.' :: more) ∧ classType? more = some (inner, rest) := by
  rw [classType?_eq] at h
  split at h
  · cases h
  · rename_i hne
    have hname : SegmentName (upTo endsSegment cs) :=
      segmentName_iff.mpr ⟨hne, (stops_since endsSegment cs).1⟩
    have hcs := (upTo_append_since endsSegment cs).symm
    obtain ⟨⟨arguments, behind⟩, harguments, h⟩ := Option.bind_eq_some_iff.mp h
    unfold afterSegment at h
    split at h
    · rename_i left hbehind
      cases h
      cases hbehind
      exact ⟨hname, _, hcs, harguments⟩
    · rename_i more hbehind
      obtain ⟨⟨inner, left⟩, hinner, heq⟩ := Option.map_eq_some_iff.mp h
      cases heq
      cases hbehind
      exact ⟨hname, _, more, hcs, harguments, hinner⟩
    · cases h

theorem typeArguments?_eq_some {arguments : TypeArguments}
    (h : typeArguments? cs = some (arguments, rest)) :
    match arguments with
    | .none => cs = rest
    | .some list => ∃ inner, cs = '<' :: inner ∧ argumentList? inner = some (list, rest) := by
  by_cases hopen : cs.head? = some '<'
  · obtain ⟨inner, rfl⟩ := List.head?_eq_some_iff.mp hopen
    rw [typeArguments?_some] at h
    obtain ⟨⟨list, left⟩, hinner, heq⟩ := Option.map_eq_some_iff.mp h
    cases heq
    exact ⟨inner, rfl, hinner⟩
  · rw [typeArguments?_none hopen] at h
    cases h
    rfl

theorem mark_append_bound (cs : List Char) : (bound cs).1.mark ++ (bound cs).2 = cs := by
  unfold bound
  split <;> rfl

theorem argumentList?_eq_some {list : ArgumentList} (h : argumentList? cs = some (list, rest)) :
    match list with
    | .nil => cs = '>' :: rest
    | .wildcard others => ∃ inner, cs = '*' :: inner ∧ argumentList? inner = some (others, rest)
    | .bounded bound type others => ∃ inner middle, cs = bound.mark ++ inner ∧
        type? inner = some (type, middle) ∧ argumentList? middle = some (others, rest) := by
  by_cases hclose : cs.head? = some '>'
  · obtain ⟨inner, rfl⟩ := List.head?_eq_some_iff.mp hclose
    rw [argumentList?_nil] at h
    cases h
    rfl
  by_cases hany : cs.head? = some '*'
  · obtain ⟨inner, rfl⟩ := List.head?_eq_some_iff.mp hany
    rw [argumentList?_wildcard] at h
    obtain ⟨⟨others, left⟩, hinner, heq⟩ := Option.map_eq_some_iff.mp h
    cases heq
    exact ⟨inner, rfl, hinner⟩
  · rw [argumentList?_bounded hclose hany] at h
    obtain ⟨⟨bounding, middle⟩, htype, h⟩ := Option.bind_eq_some_iff.mp h
    obtain ⟨⟨others, left⟩, hothers, heq⟩ := Option.map_eq_some_iff.mp h
    cases heq
    exact ⟨_, middle, (mark_append_bound cs).symm, htype, hothers⟩

/-! ### What is read is of the grammar -/

theorem SegmentsForm.ne_nil {rs : List String} (h : SegmentsForm cs rs) : rs ≠ [] := by
  cases h <;> exact List.cons_ne_nil _ _

mutual
theorem form_of_type : ∀ (type : JavaType) {cs rest : List Char}, type? cs = some (type, rest) →
    ∃ front, cs = front ++ rest ∧ TypeForm front type.render
  | .primitive p, cs, rest, h => ⟨[p.letter], type?_eq_some h, .primitive p⟩
  | .variable name, cs, rest, h => by
    obtain ⟨hne, hfree, hcs⟩ := type?_eq_some h
    exact ⟨'T' :: (name ++ [';']), by simp [hcs], .variable hne hfree⟩
  | .array element, cs, rest, h => by
    obtain ⟨inner, hcs, hinner⟩ := type?_eq_some h
    obtain ⟨front, rfl, hform⟩ := form_of_type element hinner
    exact ⟨'[' :: front, hcs, .array hform⟩
  | .object named, cs, rest, h => by
    obtain ⟨inner, hcs, hinner⟩ := type?_eq_some h
    obtain ⟨front, rs, rfl, hforms, hrender⟩ := forms_of_classType named hinner
    refine ⟨'L' :: (front ++ [';']), by simp [hcs], ?_⟩
    rw [JavaType.render, hrender]
    exact .object hforms
theorem forms_of_classType : ∀ (type : ClassType) {cs rest : List Char},
    classType? cs = some (type, rest) →
    ∃ front rs, cs = front ++ ';' :: rest ∧ SegmentsForm front rs ∧ type.render = "$".intercalate rs
  | .innermost name arguments, cs, rest, h => by
    obtain ⟨hname, tail, hcs, harguments⟩ := classType?_eq_some h
    obtain ⟨front, rfl, hform⟩ := form_of_typeArguments arguments hname harguments
    exact ⟨name ++ front, _, by simp [hcs], .last hform, rfl⟩
  | .enclosing name arguments inner, cs, rest, h => by
    obtain ⟨hname, tail, more, hcs, harguments, hinner⟩ := classType?_eq_some h
    obtain ⟨front, rfl, hform⟩ := form_of_typeArguments arguments hname harguments
    obtain ⟨others, rs, rfl, hforms, hrender⟩ := forms_of_classType inner hinner
    refine ⟨(name ++ front) ++ '.' :: others, _, by simp [hcs], .more hform hforms, ?_⟩
    rw [ClassType.render, hrender, String.intercalate_cons_of_ne_nil hforms.ne_nil]
theorem form_of_typeArguments : ∀ (arguments : TypeArguments) {name cs rest : List Char},
    SegmentName name → typeArguments? cs = some (arguments, rest) →
    ∃ front, cs = front ++ rest ∧
      SegmentForm (name ++ front) (binaryName (String.ofList name) ++ arguments.render)
  | .none, name, cs, rest, hname, h => by
    refine ⟨[], typeArguments?_eq_some h, ?_⟩
    rw [List.append_nil, TypeArguments.render, String.append_empty]
    exact .plain hname
  | .some list, name, cs, rest, hname, h => by
    obtain ⟨inner, hcs, hinner⟩ := typeArguments?_eq_some h
    obtain ⟨front, rfl, hforms⟩ := forms_of_argumentList list hinner
    exact ⟨'<' :: (front ++ ['>']), by simp [hcs], .generic hname hforms⟩
theorem forms_of_argumentList : ∀ (list : ArgumentList) {cs rest : List Char},
    argumentList? cs = some (list, rest) →
    ∃ front, cs = front ++ '>' :: rest ∧ ArgumentsForm front list.renderEach
  | .nil, cs, rest, h => ⟨[], argumentList?_eq_some h, .nil⟩
  | .wildcard others, cs, rest, h => by
    obtain ⟨inner, hcs, hinner⟩ := argumentList?_eq_some h
    obtain ⟨front, rfl, hforms⟩ := forms_of_argumentList others hinner
    exact ⟨'*' :: front, hcs, .wildcard hforms⟩
  | .bounded bound type others, cs, rest, h => by
    obtain ⟨inner, middle, hcs, htype, hothers⟩ := argumentList?_eq_some h
    obtain ⟨first, rfl, hform⟩ := form_of_type type htype
    obtain ⟨front, rfl, hforms⟩ := forms_of_argumentList others hothers
    cases bound with
    | exact =>
      refine ⟨first ++ front, by simp [hcs, Bound.mark], ?_⟩
      rw [ArgumentList.renderEach, Bound.words, String.empty_append]
      exact .exact hform hforms
    | «extends» => exact ⟨'+' :: (first ++ front), by simp [hcs, Bound.mark], .extends hform hforms⟩
    | super => exact ⟨'-' :: (first ++ front), by simp [hcs, Bound.mark], .super hform hforms⟩
end

/-! ### What is of the grammar is read -/

/-- No type starts like the end of a list of arguments or of parameters, or like a wildcard. -/
theorem TypeForm.starts {r : String} (h : TypeForm cs r) :
    ∃ c others, cs = c :: others ∧ c ∉ ['>', '*', '+', '-', ')'] := by
  cases h with
  | primitive p => exact ⟨p.letter, [], rfl, by cases p <;> decide⟩
  | array h => exact ⟨'[', _, rfl, by decide⟩
  | «variable» hne hfree => exact ⟨'T', _, rfl, by decide⟩
  | object h => exact ⟨'L', _, rfl, by decide⟩

theorem TypeForm.head?_ne {r : String} (h : TypeForm cs r) (rest : List Char) {c : Char}
    (hc : c ∈ ['>', '*', '+', '-', ')']) : (cs ++ rest).head? ≠ some c := by
  obtain ⟨d, others, rfl, hd⟩ := h.starts
  rw [List.cons_append, List.head?_cons]
  rintro heq
  cases heq
  exact hd hc

theorem TypeForm.bound_append {r : String} (h : TypeForm cs r) (rest : List Char) :
    bound (cs ++ rest) = (.exact, cs ++ rest) := by
  rw [bound]
  · rintro left hleft
    exact h.head?_ne rest (c := '+') (by decide) (by rw [hleft]; rfl)
  · rintro left hleft
    exact h.head?_ne rest (c := '-') (by decide) (by rw [hleft]; rfl)

theorem type?_variable_append {name : List Char} (hne : name ≠ []) (hfree : ';' ∉ name)
    (rest : List Char) : type? ('T' :: (name ++ ';' :: rest)) = some (.variable name, rest) := by
  have hname : ∀ c ∈ name, (c == ';') = false := by
    intro c hc
    exact beq_eq_false_iff_ne.mpr fun heq => hfree (heq ▸ hc)
  obtain ⟨hup, hsince⟩ := upTo_append hname (by simp : ∀ c ∈ (';' :: rest).head?, (c == ';') = true)
  rw [type?_variable, hup, hsince, if_neg (by simp [hne])]
  rfl

/-- The class and the arguments that a segment is read as, before the end of the class type or another
segment. -/
theorem classType?_segment {segment name front tail : List Char} {arguments : TypeArguments}
    (hname : SegmentName name) (hsegment : segment = name ++ front)
    (hfront : ∀ c ∈ (front ++ tail).head?, endsSegment c = true)
    (harguments : typeArguments? (front ++ tail) = some (arguments, tail)) :
    classType? (segment ++ tail) = afterSegment name arguments tail := by
  obtain ⟨hne, hfree⟩ := segmentName_iff.mp hname
  obtain ⟨hup, hsince⟩ := upTo_append hfree hfront
  rw [hsegment, List.append_assoc, classType?_eq, hup, hsince, if_neg hne, harguments,
    Option.bind_some]

mutual
theorem type_of_form : ∀ {front : List Char} {r : String}, TypeForm front r → ∀ rest : List Char,
    ∃ type, type? (front ++ rest) = some (type, rest) ∧ type.render = r
  | _, _, .primitive p, rest => by
    refine ⟨.primitive p, ?_, rfl⟩
    rw [List.singleton_append, type?_letter (by cases p <;> decide) (by cases p <;> decide)
      (by cases p <;> decide), Primitive.ofLetter?_letter]
    rfl
  | _, _, .array h, rest => by
    obtain ⟨element, hread, hrender⟩ := type_of_form h rest
    refine ⟨.array element, ?_, by rw [JavaType.render, hrender]⟩
    rw [List.cons_append, type?_array, hread]
    rfl
  | _, _, @TypeForm.variable name hne hfree, rest => by
    refine ⟨.variable name, ?_, rfl⟩
    rw [List.cons_append, List.append_assoc]
    exact type?_variable_append hne hfree rest
  | _, _, .object h, rest => by
    obtain ⟨named, hread, hrender⟩ := classType_of_forms h rest
    refine ⟨.object named, ?_, hrender⟩
    rw [List.cons_append, List.append_assoc, List.singleton_append, type?_object, hread]
    rfl
theorem classType_of_forms : ∀ {front : List Char} {rs : List String}, SegmentsForm front rs →
    ∀ rest : List Char, ∃ type, classType? (front ++ ';' :: rest) = some (type, rest) ∧
      type.render = "$".intercalate rs
  | _, _, .last h, rest => by
    obtain ⟨name, front, arguments, hname, rfl, hfront, harguments, rfl⟩ :=
      segment_of_form h (';' :: rest) (by simp [endsSegment]) (by simp)
    refine ⟨.innermost name arguments, ?_, rfl⟩
    rw [classType?_segment hname rfl hfront harguments, afterSegment]
  | _, _, .more h hs, rest => by
    obtain ⟨inner, hread, hrender⟩ := classType_of_forms hs rest
    obtain ⟨name, front, arguments, hname, rfl, hfront, harguments, rfl⟩ :=
      segment_of_form h ('.' :: _) (by simp [endsSegment]) (by simp)
    refine ⟨.enclosing name arguments inner, ?_, ?_⟩
    · rw [List.append_assoc, List.cons_append, classType?_segment hname rfl hfront harguments,
        afterSegment, hread]
      rfl
    · rw [ClassType.render, hrender, String.intercalate_cons_of_ne_nil hs.ne_nil]
theorem segment_of_form : ∀ {segment : List Char} {r : String}, SegmentForm segment r →
    ∀ tail : List Char, (∀ c ∈ tail.head?, endsSegment c = true) → tail.head? ≠ some '<' →
    ∃ name front arguments, SegmentName name ∧ segment = name ++ front ∧
      (∀ c ∈ (front ++ tail).head?, endsSegment c = true) ∧
      typeArguments? (front ++ tail) = some (arguments, tail) ∧
      binaryName (String.ofList name) ++ arguments.render = r
  | _, _, .plain hname, tail, hends, hopen =>
    ⟨_, [], .none, hname, (List.append_nil _).symm, hends, typeArguments?_none hopen,
      String.append_empty⟩
  | _, _, .generic hname h, tail, _, _ => by
    obtain ⟨list, hread, rfl⟩ := argumentList_of_forms h tail
    refine ⟨_, _, .some list, hname, rfl, by simp [endsSegment], ?_, by rw [TypeArguments.render]⟩
    rw [List.cons_append, List.append_assoc, List.singleton_append, typeArguments?_some, hread]
    rfl
theorem argumentList_of_forms : ∀ {front : List Char} {rs : List String}, ArgumentsForm front rs →
    ∀ rest : List Char, ∃ list, argumentList? (front ++ '>' :: rest) = some (list, rest) ∧
      list.renderEach = rs
  | _, _, .nil, rest => ⟨.nil, argumentList?_nil rest, rfl⟩
  | _, _, .wildcard h, rest => by
    obtain ⟨list, hread, rfl⟩ := argumentList_of_forms h rest
    refine ⟨.wildcard list, ?_, rfl⟩
    rw [List.cons_append, argumentList?_wildcard, hread]
    rfl
  | _, _, .extends ht h, rest => by
    obtain ⟨list, hlist, rfl⟩ := argumentList_of_forms h rest
    obtain ⟨type, htype, rfl⟩ := type_of_form ht (_ ++ '>' :: rest)
    refine ⟨.bounded .extends type list, ?_, rfl⟩
    rw [List.cons_append, List.append_assoc, argumentList?_bounded (by simp) (by simp), bound, htype,
      Option.bind_some, hlist]
    rfl
  | _, _, .super ht h, rest => by
    obtain ⟨list, hlist, rfl⟩ := argumentList_of_forms h rest
    obtain ⟨type, htype, rfl⟩ := type_of_form ht (_ ++ '>' :: rest)
    refine ⟨.bounded .super type list, ?_, rfl⟩
    rw [List.cons_append, List.append_assoc, argumentList?_bounded (by simp) (by simp), bound, htype,
      Option.bind_some, hlist]
    rfl
  | _, _, @ArgumentsForm.exact _ cs _ _ ht h, rest => by
    obtain ⟨list, hlist, rfl⟩ := argumentList_of_forms h rest
    obtain ⟨type, htype, rfl⟩ := type_of_form ht (_ ++ '>' :: rest)
    have hclose := ht.head?_ne (cs ++ '>' :: rest) (c := '>') (by decide)
    have hany := ht.head?_ne (cs ++ '>' :: rest) (c := '*') (by decide)
    refine ⟨.bounded .exact type list, ?_, ?_⟩
    · rw [List.append_assoc, argumentList?_bounded hclose hany, ht.bound_append, htype,
        Option.bind_some, hlist]
      rfl
    · rw [ArgumentList.renderEach, Bound.words, String.empty_append]
end

theorem TypeForm.eq_of_append_eq {front front' rest' : List Char} {r r' : String}
    (h : TypeForm front r) (h' : TypeForm front' r') (heq : front ++ rest = front' ++ rest') :
    front = front' ∧ r = r' := by
  -- Both are read from one text, by a reader that gives one answer.
  obtain ⟨type, hread, hrender⟩ := type_of_form h rest
  obtain ⟨type', hread', hrender'⟩ := type_of_form h' rest'
  rw [heq, hread'] at hread
  cases hread
  exact ⟨List.append_cancel_right heq, hrender.symm.trans hrender'⟩

/-! ### Methods -/

theorem parameters_close (rest : List Char) : parameters (')' :: rest) = some ([], rest) := by
  rw [parameters]

theorem parameters_type (h : cs.head? ≠ some ')') :
    parameters cs = (type? cs).bind fun got => (parameters got.2).map fun others =>
      (got.1 :: others.1, others.2) := by
  cases cs with
  | nil => rw [parameters, type?_nil, Option.bind_none]
  | cons c inner =>
    rw [parameters, type?]
    · cases type (c :: inner) with
      | none => rfl
      | some got =>
        simp only [Option.map_some, Option.bind_some]
        cases parameters got.1.2 <;> rfl
    · exact List.cons_ne_nil _ _
    · rintro rest heq
      exact h (by rw [heq]; rfl)

/-- Types one after the other, each with what Java source writes for it, and the parenthesis. -/
theorem parameters_iff {rs : List String} :
    (∃ types, parameters cs = some (types, rest) ∧ types.map JavaType.render = rs) ↔
      ∃ forms : List (List Char × String), (∀ form ∈ forms, TypeForm form.1 form.2) ∧
        cs = forms.flatMap Prod.fst ++ ')' :: rest ∧ rs = forms.map Prod.snd := by
  constructor
  · rintro ⟨types, h, rfl⟩
    induction types generalizing cs with
    | nil =>
      by_cases hclose : cs.head? = some ')'
      · obtain ⟨inner, rfl⟩ := List.head?_eq_some_iff.mp hclose
        rw [parameters_close] at h
        cases h
        exact ⟨[], by simp, rfl, rfl⟩
      · rw [parameters_type hclose] at h
        obtain ⟨got, -, h⟩ := Option.bind_eq_some_iff.mp h
        obtain ⟨others, -, heq⟩ := Option.map_eq_some_iff.mp h
        cases heq
    | cons type types ih =>
      by_cases hclose : cs.head? = some ')'
      · obtain ⟨inner, rfl⟩ := List.head?_eq_some_iff.mp hclose
        rw [parameters_close] at h
        cases h
      · rw [parameters_type hclose] at h
        obtain ⟨⟨first, left⟩, htype, h⟩ := Option.bind_eq_some_iff.mp h
        obtain ⟨⟨others, behind⟩, hothers, heq⟩ := Option.map_eq_some_iff.mp h
        cases heq
        obtain ⟨front, rfl, hform⟩ := form_of_type _ htype
        obtain ⟨forms, hforms, rfl, hwords⟩ := ih hothers
        refine ⟨(front, first.render) :: forms, ?_, ?_, ?_⟩
        · exact List.forall_mem_cons.mpr ⟨hform, hforms⟩
        · rw [List.flatMap_cons, List.append_assoc]
        · rw [List.map_cons, List.map_cons, hwords]
  · rintro ⟨forms, hforms, rfl, rfl⟩
    induction forms with
    | nil => exact ⟨[], parameters_close rest, rfl⟩
    | cons form forms ih =>
      obtain ⟨types, hread, hrender⟩ := ih fun other h => hforms other (List.mem_cons_of_mem _ h)
      have hform := hforms form List.mem_cons_self
      obtain ⟨type, htype, hword⟩ := type_of_form hform (forms.flatMap Prod.fst ++ ')' :: rest)
      refine ⟨type :: types, ?_, by rw [List.map_cons, List.map_cons, hword, hrender]⟩
      rw [List.flatMap_cons, List.append_assoc, parameters_type (hform.head?_ne _ (by decide)), htype,
        Option.bind_some, hread]
      rfl

theorem type?_iff {r : String} :
    (∃ type, type? cs = some (type, rest) ∧ type.render = r) ↔
      ∃ front, cs = front ++ rest ∧ TypeForm front r := by
  constructor
  · rintro ⟨type, h, rfl⟩
    exact form_of_type type h
  · rintro ⟨front, rfl, hform⟩
    exact type_of_form hform rest

/-- An annotation is called as Java source writes its type. -/
theorem annotationName_of_form {name : String} (h : TypeForm cs name) :
    annotationName (String.ofList cs) = name := by
  obtain ⟨type, htype, hrender⟩ := type_of_form h []
  rw [List.append_nil, type?] at htype
  obtain ⟨step, hstep, hpair⟩ := Option.map_eq_some_iff.mp htype
  have hparse : JavaType.parse? cs = some type := by
    rw [JavaType.parse?, hstep, Option.map_some, hpair]
  rw [annotationName, renderFieldType, String.toList_ofList, hparse]
  exact hrender

theorem methodType_open (inner : List Char) :
    MethodType.parse? ('(' :: inner) =
      (parameters inner).bind fun got => (type? got.2).map fun result => ⟨got.1, result.1⟩ := by
  unfold MethodType.parse?
  split
  · rename_i heq
    cases heq
  · simp only [Option.bind_eq_bind, Option.bind_some, type?]
    congr 1
    funext got
    cases type got.2 <;> rfl

theorem methodType_none (hgeneric : cs.head? ≠ some '<') (hopen : cs.head? ≠ some '(') :
    MethodType.parse? cs = none := by
  unfold MethodType.parse?
  split
  · exact absurd rfl hgeneric
  · simp only [Option.bind_eq_bind, Option.bind_some]
    split
    · exact absurd rfl hopen
    · rfl

theorem renderMethodTypes_eq_ok {text : String} {m : MethodTypes} :
    renderMethodTypes text = .ok m ↔
      ∃ method, MethodType.parse? text.toList = some method ∧ method.render = m := by
  unfold renderMethodTypes
  cases MethodType.parse? text.toList <;> simp

/-- A method without type parameters: the types it takes in parentheses and the one it gives. -/
theorem renderMethodTypes_iff {text : String} (hgeneric : text.toList.head? ≠ some '<')
    {m : MethodTypes} :
    renderMethodTypes text = .ok m ↔
      ∃ (forms : List (List Char × String)) (result rest : List Char),
        (∀ form ∈ forms, TypeForm form.1 form.2) ∧ TypeForm result m.result ∧
        text.toList = '(' :: (forms.flatMap Prod.fst ++ ')' :: (result ++ rest)) ∧
        m.parameters = forms.map Prod.snd := by
  rw [renderMethodTypes_eq_ok]
  constructor
  · rintro ⟨method, h, rfl⟩
    by_cases hopen : text.toList.head? = some '('
    · obtain ⟨inner, htext⟩ := List.head?_eq_some_iff.mp hopen
      rw [htext, methodType_open] at h
      obtain ⟨⟨types, left⟩, htypes, h⟩ := Option.bind_eq_some_iff.mp h
      obtain ⟨⟨type, rest⟩, htype, heq⟩ := Option.map_eq_some_iff.mp h
      cases heq
      obtain ⟨forms, hforms, rfl, hwords⟩ := parameters_iff.mp ⟨types, htypes, rfl⟩
      obtain ⟨result, rfl, hresult⟩ := form_of_type type htype
      exact ⟨forms, result, rest, hforms, hresult, htext, hwords⟩
    · rw [methodType_none hgeneric hopen] at h
      cases h
  · rintro ⟨forms, result, rest, hforms, hresult, htext, hwords⟩
    obtain ⟨types, htypes, hrendered⟩ := parameters_iff.mpr ⟨forms, hforms, rfl, hwords⟩
    obtain ⟨type, htype, hrender⟩ := type_of_form hresult rest
    refine ⟨⟨types, type⟩, ?_, ?_⟩
    · rw [htext, methodType_open, htypes, Option.bind_some, htype]
      rfl
    · rw [MethodType.render, hrendered, hrender]

/-! ### The law -/

/-- The reader takes a piece off the front exactly where the piece is a type, and gives back what
Java source writes for it; the piece is the only one there is; and a text that starts with no type
parameters is a method exactly where it is types in parentheses, a type behind them, and anything
after that. -/
theorem type_iff_form :
    (∀ (cs rest : List Char) (r : String),
      (∃ type, type? cs = some (type, rest) ∧ type.render = r) ↔
        ∃ front, cs = front ++ rest ∧ TypeForm front r) ∧
    (∀ (front front' rest rest' : List Char) (r r' : String), TypeForm front r → TypeForm front' r' →
      front ++ rest = front' ++ rest' → front = front' ∧ r = r') ∧
    ∀ text : String, text.toList.head? ≠ some '<' → ∀ m : MethodTypes,
      renderMethodTypes text = .ok m ↔
        ∃ (forms : List (List Char × String)) (result rest : List Char),
          (∀ form ∈ forms, TypeForm form.1 form.2) ∧ TypeForm result m.result ∧
          text.toList = '(' :: (forms.flatMap Prod.fst ++ ')' :: (result ++ rest)) ∧
          m.parameters = forms.map Prod.snd :=
  ⟨fun _ _ _ => type?_iff, fun _ _ _ _ _ _ h h' => h.eq_of_append_eq h',
    fun _ h _ => renderMethodTypes_iff h⟩

theorem binaryName_ofList (name : List Char) :
    binaryName (String.ofList name) =
      String.ofList (name.map fun c => if c = '/' then '.' else c) := by
  rw [binaryName, ← String.toList_inj, String.toList_map, String.toList_ofList, String.toList_ofList]

theorem form_entry : TypeForm "Ljava/util/Map<TK;+[I>.Entry<*>;".toList
    "java.util.Map<K, ? extends int[]>$Entry<?>" := by
  have hmap : SegmentName "java/util/Map".toList := ⟨by decide, by simp⟩
  have hentry : SegmentName "Entry".toList := ⟨by decide, by simp⟩
  have hkey : TypeForm ('T' :: (['K'] ++ [';'])) (String.ofList ['K']) :=
    .variable (by decide) (by decide)
  have hints : TypeForm ['[', 'I'] "int[]" := .array (.primitive .int)
  have h := TypeForm.object (.more (.generic hmap (.exact hkey (.extends hints .nil)))
    (.last (.generic hentry (.wildcard .nil))))
  simp only [binaryName_ofList] at h
  exact h

/-- A method that takes an entry of a map and a number; what follows its result type is left. -/
theorem type_iff_form_entry :
    renderMethodTypes "(Ljava/util/Map<TK;+[I>.Entry<*>;J)V^" =
      .ok ⟨["java.util.Map<K, ? extends int[]>$Entry<?>", "long"], "void"⟩ ∧
    (∃ type, type? "Ljava/util/Map<TK;+[I>.Entry<*>;J)V^".toList = some (type, "J)V^".toList) ∧
      type.render = "java.util.Map<K, ? extends int[]>$Entry<?>") ∧
    ∀ (front rest : List Char) (r : String), TypeForm front r →
      front ++ rest = "Ljava/util/Map<TK;+[I>.Entry<*>;".toList ++ "J)V^".toList →
      r = "java.util.Map<K, ? extends int[]>$Entry<?>" := by
  obtain ⟨hread, hunique, hmethod⟩ := type_iff_form
  refine ⟨?_, (hread _ _ _).mpr ⟨_, rfl, form_entry⟩, ?_⟩
  · refine (hmethod _ (by decide) _).mpr
      ⟨[("Ljava/util/Map<TK;+[I>.Entry<*>;".toList, _), (['J'], _)], ['V'], ['^'], ?_,
        .primitive .void, ?_, rfl⟩
    · have hlong : TypeForm ['J'] "long" := .primitive .long
      exact List.forall_mem_cons.mpr ⟨form_entry, by simpa using hlong⟩
    · decide
  · intro front rest r h heq
    exact (hunique _ _ _ _ _ _ h form_entry heq).2

end Signature

end ClassReport
