import ClassReport.Proofs.SignatureGrammar
import Mathlib.Data.List.Chain

/-!
# Generic method signatures

The grammar of method signatures: type parameters with their bounds, the types that a method takes, the
one that it gives, and those that it throws. What is rendered are the types between the parentheses and
the one behind them. Type parameters are stepped over with one character of lookahead, and that is not
always enough: behind a parameter without bounds, a name that starts with `L` or `T` is taken for a
bound. Such a signature may be refused, but no signature is ever read as another one
(`renderMethodTypes_signature`), because an opening parenthesis stands behind a closing bracket only
where the type parameters end (`Tight`).
-/

namespace ClassReport

/-! ### The grammar -/

/-- A name without the characters that mean something in a signature. -/
structure Identifier (name : List Char) : Prop where
  ne_nil : name ≠ []
  free : ∀ c ∈ name, c ∉ ['.', ';', '[', '/', '<', '>', ':']

inductive QualifiedName : List Char → Prop
  | last {name : List Char} (h : Identifier name) : QualifiedName name
  | more {name others : List Char} (h : Identifier name) (hs : QualifiedName others) :
      QualifiedName (name ++ '/' :: others)

def JavaType.IsReference : JavaType → Prop
  | .primitive _ => False
  | .variable _ | .array _ | .object _ => True

def JavaType.IsThrowable : JavaType → Prop
  | .primitive _ | .array _ => False
  | .variable _ | .object _ => True

mutual
/-- The type is one of the grammar; `void` is none. -/
def JavaType.IsProper : JavaType → Prop
  | .primitive p => p ≠ .void
  | .variable name => Identifier name
  | .array element => element.IsProper
  | .object type => type.IsProper QualifiedName
/-- Only the outermost class has its package in front of it. -/
def ClassType.IsProper : ClassType → (List Char → Prop) → Prop
  | .innermost name arguments, isName => isName name ∧ arguments.IsProper
  | .enclosing name arguments inner, isName =>
    isName name ∧ arguments.IsProper ∧ inner.IsProper Identifier
def TypeArguments.IsProper : TypeArguments → Prop
  | .none => True
  | .some list => list ≠ .nil ∧ list.IsProper
def ArgumentList.IsProper : ArgumentList → Prop
  | .nil => True
  | .wildcard rest => rest.IsProper
  | .bounded _ type rest => type.IsReference ∧ type.IsProper ∧ rest.IsProper
end

structure TypeParameter where
  name : List Char
  classBound : Option JavaType
  interfaceBounds : List JavaType

namespace TypeParameter

/-- The bounds as they stand behind the name, each behind a colon. The place of the class may be empty. -/
def boundsText (p : TypeParameter) : List Char :=
  ':' :: (p.classBound.elim [] JavaType.text ++ p.interfaceBounds.flatMap fun b => ':' :: b.text)

def text (p : TypeParameter) : List Char := p.name ++ p.boundsText

structure IsProper (p : TypeParameter) : Prop where
  name : Identifier p.name
  classBound : ∀ b ∈ p.classBound, b.IsReference ∧ b.IsProper
  interfaceBounds : ∀ b ∈ p.interfaceBounds, b.IsReference ∧ b.IsProper

def IsBare (p : TypeParameter) : Prop := p.classBound = none ∧ p.interfaceBounds = []

end TypeParameter

structure MethodSignature extends MethodType where
  typeParameters : List TypeParameter
  thrown : List JavaType

namespace MethodSignature

def callText (s : MethodSignature) : List Char :=
  '(' :: (s.parameters.flatMap JavaType.text ++
    ')' :: (s.result.text ++ s.thrown.flatMap fun t => '^' :: t.text))

/-- Angle brackets are there only if something stands between them. -/
def text (s : MethodSignature) : List Char :=
  if s.typeParameters.isEmpty then s.callText
  else '<' :: (s.typeParameters.flatMap TypeParameter.text ++ '>' :: s.callText)

structure IsProper (s : MethodSignature) : Prop where
  typeParameters : ∀ p ∈ s.typeParameters, p.IsProper
  parameters : ∀ t ∈ s.parameters, t.IsProper
  result : s.result = .primitive .void ∨ s.result.IsProper
  thrown : ∀ t ∈ s.thrown, t.IsThrowable ∧ t.IsProper

/-- No name behind a parameter without bounds starts like a bound. -/
def TellsNames (s : MethodSignature) : Prop :=
  s.typeParameters.IsChain fun p q =>
    p.IsBare → q.name.head? ≠ some 'L' ∧ q.name.head? ≠ some 'T'

end MethodSignature

theorem Identifier.notMem {name : List Char} (h : Identifier name) {c : Char}
    (hc : c ∈ ['.', ';', '[', '/', '<', '>', ':']) : c ∉ name :=
  fun hmem => h.free c hmem hc

theorem QualifiedName.ne_nil {name : List Char} (h : QualifiedName name) : name ≠ [] := by
  cases h with
  | last h => exact h.ne_nil
  | more h hs => simp

theorem QualifiedName.notMem {name : List Char} (h : QualifiedName name) {c : Char}
    (hc : c ∈ ['.', ';', '[', '<', '>', ':']) : c ∉ name := by
  have hall : c ∈ ['.', ';', '[', '/', '<', '>', ':'] := by
    simp only [List.mem_cons, List.not_mem_nil, or_false] at hc ⊢
    tauto
  have hslash : c ≠ '/' := by
    rintro rfl
    revert hc
    decide
  induction h with
  | last h => exact h.notMem hall
  | more h hs ih =>
    simp only [List.mem_append, List.mem_cons, not_or]
    exact ⟨h.notMem hall, hslash, ih⟩

namespace Signature

/-! ### Types of the grammar are read -/

theorem segmentName_of_identifier {name : List Char} (h : Identifier name) : SegmentName name where
  ne_nil := h.ne_nil
  free c hc := by
    have hfree := h.free c hc
    simp only [List.mem_cons, List.not_mem_nil, or_false, not_or] at hfree
    tauto

theorem segmentName_of_qualified {name : List Char} (h : QualifiedName name) : SegmentName name where
  ne_nil := h.ne_nil
  free c hc := by
    refine ⟨?_, ?_, ?_⟩
    · rintro rfl
      exact h.notMem (by decide) hc
    · rintro rfl
      exact h.notMem (by decide) hc
    · rintro rfl
      exact h.notMem (by decide) hc

mutual
theorem form_of_proper : ∀ type : JavaType, type.IsProper → TypeForm type.text type.render
  | .primitive p, _ => .primitive p
  | .variable name, h => .variable (Identifier.ne_nil h) (Identifier.notMem h (by decide))
  | .array element, h => .array (form_of_proper element h)
  | .object type, h => by
    obtain ⟨front, rs, htext, hforms, hrender⟩ :=
      forms_of_proper type segmentName_of_qualified h
    rw [JavaType.text, JavaType.render, htext, hrender]
    exact .object hforms
theorem forms_of_proper : ∀ (type : ClassType) {isName : List Char → Prop},
    (∀ {name}, isName name → SegmentName name) → type.IsProper isName →
    ∃ front rs, type.text = front ++ [';'] ∧ SegmentsForm front rs ∧
      type.render = "$".intercalate rs
  | .innermost name arguments, _, hsegment, ⟨hname, harguments⟩ =>
    ⟨name ++ arguments.text, _, rfl, .last (segment_of_proper arguments (hsegment hname) harguments),
      rfl⟩
  | .enclosing name arguments inner, _, hsegment, ⟨hname, harguments, hinner⟩ => by
    obtain ⟨front, rs, htext, hforms, hrender⟩ :=
      forms_of_proper inner segmentName_of_identifier hinner
    have hsegments := SegmentsForm.more
      (segment_of_proper arguments (hsegment hname) harguments) hforms
    refine ⟨(name ++ arguments.text) ++ '.' :: front, _, ?_, hsegments, ?_⟩
    · rw [ClassType.text, htext]
      simp
    · rw [ClassType.render, hrender, String.intercalate_cons_of_ne_nil hforms.ne_nil]
theorem segment_of_proper : ∀ (arguments : TypeArguments) {name : List Char}, SegmentName name →
    arguments.IsProper →
    SegmentForm (name ++ arguments.text) (binaryName (String.ofList name) ++ arguments.render)
  | .none, name, hname, _ => by
    rw [TypeArguments.text, TypeArguments.render, List.append_nil, String.append_empty]
    exact .plain hname
  | .some list, name, hname, ⟨_, h⟩ => by
    obtain ⟨front, htext, hforms⟩ := arguments_of_proper list h
    rw [TypeArguments.text, TypeArguments.render, htext]
    exact .generic hname hforms
theorem arguments_of_proper : ∀ list : ArgumentList, list.IsProper →
    ∃ front, list.text = front ++ ['>'] ∧ ArgumentsForm front list.renderEach
  | .nil, _ => ⟨[], rfl, .nil⟩
  | .wildcard others, h => by
    obtain ⟨front, htext, hforms⟩ := arguments_of_proper others h
    exact ⟨'*' :: front, by rw [ArgumentList.text, htext]; rfl, .wildcard hforms⟩
  | .bounded bound type others, ⟨_, htype, h⟩ => by
    obtain ⟨front, htext, hforms⟩ := arguments_of_proper others h
    have hform := form_of_proper type htype
    refine ⟨bound.mark ++ (type.text ++ front), ?_, ?_⟩
    · rw [ArgumentList.text, htext]
      simp
    · rw [ArgumentList.renderEach]
      cases bound with
      | exact =>
        rw [Bound.words, String.empty_append]
        show ArgumentsForm (type.text ++ front) _
        exact .exact hform hforms
      | «extends» =>
        show ArgumentsForm ('+' :: (type.text ++ front)) _
        exact .extends hform hforms
      | super =>
        show ArgumentsForm ('-' :: (type.text ++ front)) _
        exact .super hform hforms
end

theorem type?_text {type : JavaType} (h : type.IsProper) (rest : List Char) :
    ∃ got, type? (type.text ++ rest) = some (got, rest) ∧ got.render = type.render :=
  type_of_form (form_of_proper type h) rest

/-! ### Bounds and type parameters are stepped over -/

def skipBounds? (cs : List Char) : Option (List Char) := (skipBounds cs).map Subtype.val

variable {cs rest : List Char}

theorem skipBounds?_bound (h : startsBound cs = true) :
    skipBounds? (':' :: cs) = (type? cs).bind fun got => skipBounds? got.2 := by
  rw [skipBounds?, skipBounds, if_pos h, type?]
  cases type cs with
  | none => rfl
  | some got =>
    simp only [skipBounds?, Option.map_some, Option.bind_some]
    cases skipBounds got.1.2 <;> rfl

theorem skipBounds?_empty (h : startsBound cs = false) : skipBounds? (':' :: cs) = skipBounds? cs := by
  rw [skipBounds?, skipBounds, h, if_neg (by decide), skipBounds?]
  cases skipBounds cs <;> rfl

theorem skipBounds?_end (h : cs.head? ≠ some ':') : skipBounds? cs = some cs := by
  rw [skipBounds?, skipBounds]
  · rfl
  · rintro rest rfl
    exact h rfl

theorem skipTypeParameters_name (h : cs.head? ≠ some '>') :
    skipTypeParameters cs =
      if upTo endsParameterName cs = [] then none
      else if (since endsParameterName cs).head? = some ':' then
        (skipBounds? (since endsParameterName cs)).bind skipTypeParameters
      else none := by
  rw [skipTypeParameters]
  · split
    · rfl
    · split
      · rw [skipBounds?]
        cases skipBounds (since endsParameterName cs) <;> rfl
      · rfl
  · rintro rest rfl
    exact h rfl

theorem startsBound_cons {c : Char} (hobject : c ≠ 'L') (hvariable : c ≠ 'T') (harray : c ≠ '[')
    (rest : List Char) : startsBound (c :: rest) = false := by
  unfold startsBound
  split <;> simp_all

theorem startsBound_text {type : JavaType} (href : type.IsReference) (rest : List Char) :
    startsBound (type.text ++ rest) = true := by
  cases type with
  | primitive p => exact href.elim
  | «variable» name => rfl
  | array element => rfl
  | object type => rfl

theorem skipBounds?_text {type : JavaType} (h : type.IsReference ∧ type.IsProper)
    (rest : List Char) : skipBounds? (':' :: (type.text ++ rest)) = skipBounds? rest := by
  obtain ⟨got, hread, -⟩ := type?_text h.2 rest
  rw [skipBounds?_bound (startsBound_text h.1 rest), hread, Option.bind_some]

theorem skipBounds?_texts {bounds : List JavaType} (h : ∀ b ∈ bounds, b.IsReference ∧ b.IsProper)
    (rest : List Char) :
    skipBounds? ((bounds.flatMap fun b => ':' :: b.text) ++ rest) = skipBounds? rest := by
  induction bounds with
  | nil => rfl
  | cons b bounds ih =>
    obtain ⟨hb, hbounds⟩ := List.forall_mem_cons.mp h
    simp only [List.flatMap_cons, List.cons_append, List.append_assoc]
    rw [skipBounds?_text hb, ih hbounds]

/-- The bounds of a parameter are stepped over, if what stands behind a lone colon is not taken for
one. -/
theorem skipBounds?_boundsText {p : TypeParameter} (h : p.IsProper)
    (hbehind : p.IsBare → startsBound rest = false) :
    skipBounds? (p.boundsText ++ rest) = skipBounds? rest := by
  rw [TypeParameter.boundsText, List.cons_append, List.append_assoc]
  cases hclass : p.classBound with
  | some b =>
    rw [Option.elim_some, skipBounds?_text (h.classBound b hclass), skipBounds?_texts h.interfaceBounds]
  | none =>
    rw [Option.elim_none, List.nil_append, skipBounds?_empty, skipBounds?_texts h.interfaceBounds]
    cases hinterfaces : p.interfaceBounds with
    | nil => exact hbehind ⟨hclass, hinterfaces⟩
    | cons b bounds => rfl

theorem skipTypeParameters_parameter {p : TypeParameter} (h : p.IsProper)
    (hbehind : p.IsBare → startsBound rest = false) (hend : rest.head? ≠ some ':') :
    skipTypeParameters (p.text ++ rest) = skipTypeParameters rest := by
  have hname : ∀ c ∈ p.name, endsParameterName c = false := by
    intro c hc
    have hfree := h.name.free c hc
    simp only [List.mem_cons, List.not_mem_nil, or_false, not_or] at hfree
    simp [endsParameterName, hfree]
  have hcolon : ∀ c ∈ (p.boundsText ++ rest).head?, endsParameterName c = true := by
    simp [TypeParameter.boundsText, endsParameterName]
  obtain ⟨hup, hsince⟩ := upTo_append hname hcolon
  have hclose : (p.text ++ rest).head? ≠ some '>' := by
    obtain ⟨c, others, hcs⟩ := List.exists_cons_of_ne_nil h.name.ne_nil
    have hc : c ≠ '>' := by
      rintro rfl
      exact h.name.notMem (c := '>') (by decide) (by simp [hcs])
    simp [TypeParameter.text, hcs, hc]
  rw [skipTypeParameters_name hclose, TypeParameter.text, List.append_assoc, hup, hsince,
    if_neg h.name.ne_nil, skipBounds?_boundsText h hbehind, skipBounds?_end hend]
  simp [TypeParameter.boundsText]

theorem head?_texts {ps : List TypeParameter} (h : ∀ p ∈ ps, p.IsProper) (tail : List Char) :
    (ps.flatMap TypeParameter.text ++ '>' :: tail).head? ≠ some ':' := by
  cases ps with
  | nil => simp
  | cons p ps =>
    have hname := (h p List.mem_cons_self).name
    obtain ⟨c, others, hcs⟩ := List.exists_cons_of_ne_nil hname.ne_nil
    have hc : c ≠ ':' := by
      rintro rfl
      exact hname.notMem (c := ':') (by decide) (by simp [hcs])
    simp [TypeParameter.text, hcs, hc]

theorem skipTypeParameters_texts {ps : List TypeParameter} (h : ∀ p ∈ ps, p.IsProper)
    (hnames : ps.IsChain fun p q =>
      p.IsBare → q.name.head? ≠ some 'L' ∧ q.name.head? ≠ some 'T') (tail : List Char) :
    skipTypeParameters (ps.flatMap TypeParameter.text ++ '>' :: tail) = some tail := by
  -- What comes behind a parameter decides how its bounds are read.
  induction ps with
  | nil => rw [List.flatMap_nil, List.nil_append, skipTypeParameters]
  | cons p ps ih =>
    obtain ⟨hp, hps⟩ := List.forall_mem_cons.mp h
    have hbehind (hbare : p.IsBare) :
        startsBound (ps.flatMap TypeParameter.text ++ '>' :: tail) = false := by
      cases ps with
      | nil => rfl
      | cons q qs =>
        have hq := (hps q List.mem_cons_self).name
        obtain ⟨c, others, hcs⟩ := List.exists_cons_of_ne_nil hq.ne_nil
        have hstart := (List.isChain_cons_cons.mp hnames).1 hbare
        have harray : c ≠ '[' := by
          rintro rfl
          exact hq.notMem (c := '[') (by decide) (by simp [hcs])
        simp only [hcs, List.head?_cons, ne_eq, Option.some.injEq] at hstart
        simp only [List.flatMap_cons, TypeParameter.text, hcs, List.cons_append]
        exact startsBound_cons hstart.1 hstart.2 harray _
    rw [List.flatMap_cons, List.append_assoc,
      skipTypeParameters_parameter hp hbehind (head?_texts hps tail)]
    exact ih hps hnames.of_cons

/-! ### What is stepped over ends with a closing bracket -/

theorem skipBounds?_eq_some {cs left : List Char} (h : skipBounds? cs = some left) :
    ∃ front, cs = front ++ left := by
  by_cases hcolon : cs.head? = some ':'
  · obtain ⟨inner, rfl⟩ := List.head?_eq_some_iff.mp hcolon
    cases hstart : startsBound inner with
    | true =>
      rw [skipBounds?_bound hstart] at h
      obtain ⟨⟨type, behind⟩, htype, hrest⟩ := Option.bind_eq_some_iff.mp h
      obtain ⟨front, rfl, -⟩ := form_of_type type htype
      have hlt : behind.length < (':' :: (front ++ behind)).length := by
        simp only [List.length_cons, List.length_append]
        omega
      have hbehind : skipBounds? behind = some left := hrest
      obtain ⟨others, hothers⟩ := skipBounds?_eq_some hbehind
      exact ⟨':' :: (front ++ others), by simp [hothers]⟩
    | false =>
      rw [skipBounds?_empty hstart] at h
      obtain ⟨front, hfront⟩ := skipBounds?_eq_some h
      exact ⟨':' :: front, by rw [hfront]; rfl⟩
  · rw [skipBounds?_end hcolon] at h
    cases h
    exact ⟨[], rfl⟩
termination_by cs.length

theorem skipTypeParameters_eq_some {cs left : List Char} (h : skipTypeParameters cs = some left) :
    ∃ front, cs = front ++ '>' :: left := by
  by_cases hclose : cs.head? = some '>'
  · obtain ⟨inner, rfl⟩ := List.head?_eq_some_iff.mp hclose
    rw [skipTypeParameters] at h
    cases h
    exact ⟨[], rfl⟩
  · rw [skipTypeParameters_name hclose] at h
    split at h
    · cases h
    · rename_i hname
      split at h
      · obtain ⟨behind, hbounds, hrest⟩ := Option.bind_eq_some_iff.mp h
        obtain ⟨front, hfront⟩ := skipBounds?_eq_some hbounds
        have hlt : behind.length < cs.length := by
          have hsince := length_since_lt hname
          rw [hfront, List.length_append] at hsince
          omega
        obtain ⟨others, hothers⟩ := skipTypeParameters_eq_some hrest
        refine ⟨upTo endsParameterName cs ++ (front ++ others), ?_⟩
        calc cs = upTo endsParameterName cs ++ since endsParameterName cs :=
              (upTo_append_since endsParameterName cs).symm
          _ = upTo endsParameterName cs ++ (front ++ (others ++ '>' :: left)) := by
              rw [hfront, hothers]
          _ = _ := by simp
      · cases h
termination_by cs.length

/-! ### Where a parenthesis can stand behind a bracket -/

/-- No opening parenthesis stands behind a closing bracket, nor could one by what follows. -/
structure Tight (cs : List Char) : Prop where
  chain : cs.IsChain fun a b => a = '>' → b ≠ '('
  last : cs.getLast? ≠ some '>'

theorem tight_of_notMem (h : '>' ∉ cs) : Tight cs where
  chain := by
    induction cs with
    | nil => exact .nil
    | cons c cs ih =>
      simp only [List.mem_cons, not_or] at h
      refine List.isChain_cons.mpr ⟨?_, ih h.2⟩
      intro b _ hc
      exact absurd hc.symm h.1
  last hlast := h (List.mem_of_getLast? hlast)

theorem Tight.append {first second : List Char} (h : Tight first) (h' : Tight second) :
    Tight (first ++ second) where
  chain := by
    refine List.isChain_append.mpr ⟨h.chain, h'.chain, ?_⟩
    rintro a ha b - rfl
    exact absurd ha h.last
  last := by
    have hfirst := h.last
    have hsecond := h'.last
    rw [List.getLast?_append]
    cases hlast : second.getLast? with
    | none => simpa using hfirst
    | some c => simpa [hlast] using hsecond

theorem Tight.cons {c : Char} (hc : c ≠ '>') (h : Tight cs) : Tight (c :: cs) := by
  have hone : Tight [c] := tight_of_notMem (by simpa using hc.symm)
  exact hone.append h

theorem Tight.close {c : Char} (hc : c ≠ '(') (h : Tight (c :: cs)) : Tight ('>' :: c :: cs) where
  chain := List.isChain_cons_cons.mpr ⟨fun _ => hc, h.chain⟩
  last := by simpa [List.getLast?_cons_cons] using h.last

theorem Tight.flatMap {α : Type} {f : α → List Char} {items : List α}
    (h : ∀ item ∈ items, Tight (f item)) : Tight (items.flatMap f) := by
  induction items with
  | nil => exact tight_of_notMem (by simp)
  | cons item items ih =>
    obtain ⟨hitem, hitems⟩ := List.forall_mem_cons.mp h
    rw [List.flatMap_cons]
    exact hitem.append (ih hitems)

mutual
theorem tight_type : ∀ type : JavaType, type.IsProper → Tight type.text
  | .primitive p, _ => tight_of_notMem (by cases p <;> decide)
  | .variable name, h => by
    have hname := Identifier.notMem h (c := '>') (by decide)
    exact tight_of_notMem (by simp [JavaType.text, hname])
  | .array element, h => (tight_type element h).cons (by decide)
  | .object type, h =>
    (tight_classType type (fun hname => QualifiedName.notMem hname (by decide)) h).cons (by decide)
theorem tight_classType : ∀ (type : ClassType) {isName : List Char → Prop},
    (∀ {name}, isName name → '>' ∉ name) → type.IsProper isName → Tight type.text
  | .innermost name arguments, _, hfree, ⟨hname, harguments⟩ => by
    rw [ClassType.text, List.append_assoc]
    apply (tight_of_notMem (hfree hname)).append
    exact tight_arguments arguments harguments (by decide) (tight_of_notMem (by decide))
  | .enclosing name arguments inner, _, hfree, ⟨hname, harguments, hinner⟩ => by
    have htext := tight_classType inner (fun hname => Identifier.notMem hname (by decide)) hinner
    rw [ClassType.text, List.append_assoc]
    apply (tight_of_notMem (hfree hname)).append
    exact tight_arguments arguments harguments (by decide) (htext.cons (by decide))
theorem tight_arguments : ∀ (arguments : TypeArguments), arguments.IsProper →
    ∀ {c : Char} {cs : List Char}, c ≠ '(' → Tight (c :: cs) → Tight (arguments.text ++ c :: cs)
  | .none, _, _, _, _, h => h
  | .some list, ⟨_, hlist⟩, _, _, hc, h => (tight_argumentList list hlist hc h).cons (by decide)
theorem tight_argumentList : ∀ (list : ArgumentList), list.IsProper →
    ∀ {c : Char} {cs : List Char}, c ≠ '(' → Tight (c :: cs) → Tight (list.text ++ c :: cs)
  | .nil, _, _, _, hc, h => h.close hc
  | .wildcard others, hothers, _, _, hc, h =>
    (tight_argumentList others hothers hc h).cons (by decide)
  | .bounded bound type others, ⟨_, htype, hothers⟩, _, _, hc, h => by
    have hmark : Tight bound.mark := tight_of_notMem (by cases bound <;> decide)
    rw [ArgumentList.text, List.append_assoc]
    exact (hmark.append (tight_type type htype)).append (tight_argumentList others hothers hc h)
end

theorem tight_parameter {p : TypeParameter} (h : p.IsProper) : Tight p.text := by
  have hname : Tight p.name := tight_of_notMem (h.name.notMem (by decide))
  have hclass : Tight (p.classBound.elim [] JavaType.text) := by
    cases hbound : p.classBound with
    | none => exact tight_of_notMem (by simp)
    | some b => exact tight_type b (h.classBound b hbound).2
  have hinterfaces : Tight (p.interfaceBounds.flatMap fun b => ':' :: b.text) :=
    Tight.flatMap fun b hb => (tight_type b (h.interfaceBounds b hb).2).cons (by decide)
  exact hname.append ((hclass.append hinterfaces).cons (by decide))

theorem tight_callText {s : MethodSignature} (h : s.IsProper) : Tight s.callText := by
  have hparameters : Tight (s.parameters.flatMap JavaType.text) :=
    Tight.flatMap fun t ht => tight_type t (h.parameters t ht)
  have hresult : Tight s.result.text := by
    rcases h.result with hvoid | hresult
    · rw [hvoid]
      exact tight_of_notMem (by decide)
    · exact tight_type _ hresult
  have hthrown : Tight (s.thrown.flatMap fun t => '^' :: t.text) :=
    Tight.flatMap fun t ht => (tight_type t (h.thrown t ht).2).cons (by decide)
  exact (hparameters.append ((hresult.append hthrown).cons (by decide))).cons (by decide)

theorem Tight.not_opened {front left : List Char} (h : Tight (front ++ '>' :: '(' :: left)) :
    False := by
  have hchain := (List.isChain_append.mp h.chain).2.1
  exact (List.isChain_cons_cons.mp hchain).1 rfl rfl

/-- Of two texts without such a parenthesis, put together so that there is one, no other place can be
taken for the seam. -/
theorem Tight.eq_of_opened {first second front left : List Char} (h : Tight first)
    (h' : Tight ('(' :: second))
    (heq : first ++ '>' :: '(' :: second = front ++ '>' :: '(' :: left) : second = left := by
  rcases List.append_eq_append_iff.mp heq with ⟨more, rfl, hmore⟩ | ⟨more, rfl, hmore⟩
  · cases more with
    | nil => simpa using hmore
    | cons c more =>
      -- The other place lies in the second text.
      obtain ⟨rfl, hsecond⟩ := List.cons_eq_cons.mp hmore
      rw [hsecond] at h'
      exact h'.not_opened.elim
  · cases more with
    | nil => simpa using hmore.symm
    | cons c more =>
      obtain ⟨rfl, hleft⟩ := List.cons_eq_cons.mp hmore
      cases more with
      | nil => simp at hleft
      | cons d more =>
        obtain ⟨rfl, -⟩ := List.cons_eq_cons.mp hleft
        exact h.not_opened.elim

/-! ### Methods -/

theorem methodType_generic (cs : List Char) :
    MethodType.parse? ('<' :: cs) = (skipTypeParameters cs).bind fun declared =>
      if declared.head? = some '(' then MethodType.parse? declared else none := by
  conv => lhs; unfold MethodType.parse?
  simp only [Option.bind_eq_bind]
  congr 1
  funext declared
  split
  · rename_i inner
    rw [if_pos (List.head?_cons), methodType_open]
    congr 1
    funext got
    rw [type?]
    cases type got.2 <;> rfl
  · rename_i hopen
    rw [if_neg]
    intro hhead
    obtain ⟨inner, rfl⟩ := List.head?_eq_some_iff.mp hhead
    exact hopen inner rfl

theorem parse?_callText {s : MethodSignature} (h : s.IsProper) :
    ∃ method, MethodType.parse? s.callText = some method ∧
      method.render = s.toMethodType.render := by
  have hresult : TypeForm s.result.text s.result.render := by
    rcases h.result with hvoid | hresult
    · rw [hvoid]
      exact .primitive .void
    · exact form_of_proper _ hresult
  obtain ⟨types, htypes, hrendered⟩ := parameters_iff.mpr
    ⟨s.parameters.map fun t => (t.text, t.render), by
      simp only [List.forall_mem_map]
      exact fun t ht => form_of_proper t (h.parameters t ht), rfl, rfl⟩
  obtain ⟨type, htype, hrender⟩ := type_of_form hresult (s.thrown.flatMap fun t => '^' :: t.text)
  refine ⟨⟨types, type⟩, ?_, ?_⟩
  · rw [MethodSignature.callText, methodType_open]
    rw [List.flatMap_map] at htypes
    rw [htypes, Option.bind_some, htype]
    rfl
  · rw [MethodType.render, MethodType.render, hrendered, hrender]
    simp

theorem methodType_signature {s : MethodSignature} (h : s.typeParameters ≠ []) :
    MethodType.parse? s.text =
      (skipTypeParameters (s.typeParameters.flatMap TypeParameter.text ++ '>' :: s.callText)).bind
        fun declared => if declared.head? = some '(' then MethodType.parse? declared else none := by
  rw [MethodSignature.text, List.isEmpty_eq_false_iff.mpr h, if_neg (by decide), methodType_generic]

theorem text_eq_callText {s : MethodSignature} (h : s.typeParameters = []) : s.text = s.callText := by
  rw [MethodSignature.text, h, List.isEmpty_nil, if_pos rfl]

theorem parse?_of_tellsNames {s : MethodSignature} (h : s.IsProper) (hnames : s.TellsNames) :
    MethodType.parse? s.text = MethodType.parse? s.callText := by
  by_cases hnone : s.typeParameters = []
  · rw [text_eq_callText hnone]
  · rw [methodType_signature hnone, skipTypeParameters_texts h.typeParameters hnames, Option.bind_some]
    exact if_pos rfl

/-- Where the type parameters were read in another way, the call that is read behind them is still the
one of the signature. -/
theorem parse?_of_read {s : MethodSignature} (h : s.IsProper) {method : MethodType}
    (hread : MethodType.parse? s.text = some method) :
    MethodType.parse? s.callText = some method := by
  by_cases hnone : s.typeParameters = []
  · rwa [text_eq_callText hnone] at hread
  · rw [methodType_signature hnone] at hread
    obtain ⟨declared, hskip, hread⟩ := Option.bind_eq_some_iff.mp hread
    split at hread
    · rename_i hopen
      obtain ⟨left, rfl⟩ := List.head?_eq_some_iff.mp hopen
      obtain ⟨front, hfront⟩ := skipTypeParameters_eq_some hskip
      have hparameters : Tight (s.typeParameters.flatMap TypeParameter.text) :=
        Tight.flatMap fun p hp => tight_parameter (h.typeParameters p hp)
      have hseam := hparameters.eq_of_opened (tight_callText h) hfront
      rwa [MethodSignature.callText, hseam]
    · cases hread

/-- A signature is rendered by its types, if no name behind a type parameter without bounds starts like
a bound; and whatever its names are, it is not rendered as any other types. -/
theorem renderMethodTypes_signature (s : MethodSignature) (h : s.IsProper) :
    (s.TellsNames → renderMethodTypes (String.ofList s.text) = .ok s.toMethodType.render) ∧
    ∀ types, renderMethodTypes (String.ofList s.text) = .ok types →
      types = s.toMethodType.render := by
  obtain ⟨method, hmethod, hrender⟩ := parse?_callText h
  constructor
  · intro hnames
    rw [renderMethodTypes_eq_ok, String.toList_ofList, parse?_of_tellsNames h hnames]
    exact ⟨method, hmethod, hrender⟩
  · intro types htypes
    rw [renderMethodTypes_eq_ok, String.toList_ofList] at htypes
    obtain ⟨other, hread, rfl⟩ := htypes
    have hother := parse?_of_read h hread
    rw [hmethod] at hother
    cases hother
    exact hrender

/-- A parameter without bounds, one with the bound of a class and one with that of an interface. -/
def greatest : MethodSignature where
  typeParameters :=
    [⟨['A'], none, []⟩,
      ⟨['E'], some (.object (.innermost "x/E".toList .none)), []⟩,
      ⟨['T'], none,
        [.object (.innermost "x/C".toList (.some (.bounded .super (.variable ['T']) .nil)))]⟩]
  parameters := [.object (.innermost "x/L".toList (.some (.bounded .exact (.variable ['T']) .nil)))]
  result := .variable ['T']
  thrown := [.variable ['E']]

theorem qualifiedName_pair {c d : Char} (hc : Identifier [c]) (hd : Identifier [d]) :
    QualifiedName [c, '/', d] :=
  .more hc (.last hd)

theorem greatest_isProper : greatest.IsProper := by
  have ha : Identifier ['A'] := ⟨by decide, by simp⟩
  have he : Identifier ['E'] := ⟨by decide, by simp⟩
  have ht : Identifier ['T'] := ⟨by decide, by simp⟩
  have hx : Identifier ['x'] := ⟨by decide, by simp⟩
  have hc : Identifier ['C'] := ⟨by decide, by simp⟩
  have hl : Identifier ['L'] := ⟨by decide, by simp⟩
  have hargument {bound : Bound} :
      (TypeArguments.some (.bounded bound (.variable ['T']) .nil)).IsProper :=
    ⟨by simp, trivial, ht, trivial⟩
  refine ⟨?_, ?_, .inr ht, ?_⟩
  · simp only [greatest, List.forall_mem_cons]
    refine ⟨⟨ha, by simp, by simp⟩, ⟨he, ?_, by simp⟩, ⟨ht, by simp, ?_⟩, by simp⟩
    · simp only [Option.mem_some_iff, forall_eq']
      exact ⟨trivial, qualifiedName_pair hx he, trivial⟩
    · simp only [List.forall_mem_cons]
      exact ⟨⟨trivial, qualifiedName_pair hx hc, hargument⟩, by simp⟩
  · simp only [greatest, List.forall_mem_cons]
    exact ⟨⟨qualifiedName_pair hx hl, hargument⟩, by simp⟩
  · simp only [greatest, List.forall_mem_cons]
    exact ⟨⟨trivial, he⟩, by simp⟩

theorem renderMethodTypes_signature_greatest :
    greatest.IsProper ∧
    String.ofList greatest.text = "<A:E:Lx/E;T::Lx/C<-TT;>;>(Lx/L<TT;>;)TT;^TE;" ∧
    renderMethodTypes "<A:E:Lx/E;T::Lx/C<-TT;>;>(Lx/L<TT;>;)TT;^TE;" = .ok ⟨["x.L<T>"], "T"⟩ := by
  have hnames : greatest.TellsNames := by
    simp [MethodSignature.TellsNames, greatest, TypeParameter.IsBare]
  have htext : String.ofList greatest.text = "<A:E:Lx/E;T::Lx/C<-TT;>;>(Lx/L<TT;>;)TT;^TE;" := by
    decide
  have hrender : greatest.toMethodType.render = ⟨["x.L<T>"], "T"⟩ := by
    simp only [greatest, MethodType.render, List.map_cons, List.map_nil, JavaType.render,
      ClassType.render, TypeArguments.render, ArgumentList.renderEach, binaryName_ofList]
    decide
  have hread := (renderMethodTypes_signature greatest greatest_isProper).1 hnames
  rw [htext, hrender] at hread
  exact ⟨greatest_isProper, htext, hread⟩

/-- Behind a parameter without bounds, the name of the next one is read as a type variable that never
ends. -/
theorem exists_signature_refused :
    ∃ s : MethodSignature, s.IsProper ∧ s.toMethodType.render = ⟨[], "void"⟩ ∧
      String.ofList s.text = "<A:T:>()V" ∧ renderMethodTypes "<A:T:>()V" = .error ⟨"<A:T:>()V"⟩ := by
  have ha : Identifier ['A'] := ⟨by decide, by simp⟩
  have ht : Identifier ['T'] := ⟨by decide, by simp⟩
  refine ⟨⟨⟨[], .primitive .void⟩, [⟨['A'], none, []⟩, ⟨['T'], none, []⟩], []⟩,
    ⟨?_, by simp, .inl rfl, by simp⟩, rfl, by decide, by cbv⟩
  simp only [List.forall_mem_cons]
  exact ⟨⟨ha, by simp, by simp⟩, ⟨ht, by simp, by simp⟩, by simp⟩

end Signature

end ClassReport
