import ClassReport.ClassRecord.OfClassFile
import Mathlib.Data.List.Forall2

/-!
# Members and their records

Which members of a class file a record shows, and where it takes the types of a method from. The members
are gone through once, in their order: each field becomes a field, and of the methods those of one name
become constructors, those of another nothing, and the others methods. Parameters and result come
together from the generic signature or together from the descriptor, and never are there more or fewer
parameters than a readable descriptor has (`toRecord_members`).
-/

namespace ClassReport

variable {m : Member} {types : MethodTypes}

/-! ### The types of a method -/

/-- The types of a method: those of its signature or those of its descriptor, as a whole. -/
inductive HasTypes (m : Member) : MethodTypes → Prop
  /-- Both can be read and have as many parameters. -/
  | generic {text : String} {types erased : MethodTypes} (hsignature : m.signature = some text)
      (hread : renderMethodTypes text = .ok types)
      (hdescriptor : renderMethodTypes m.descriptor = .ok erased)
      (hcount : types.parameters.length = erased.parameters.length) : HasTypes m types
  /-- There is no signature that can be read and has as many parameters. -/
  | erased {types : MethodTypes} (hdescriptor : renderMethodTypes m.descriptor = .ok types)
      (hsignature : ∀ text generic, m.signature = some text →
        renderMethodTypes text = .ok generic →
        generic.parameters.length ≠ types.parameters.length) : HasTypes m types
  | genericOnly {text : String} {types : MethodTypes}
      (hdescriptor : ∀ erased, renderMethodTypes m.descriptor ≠ .ok erased)
      (hsignature : m.signature = some text) (hread : renderMethodTypes text = .ok types) :
      HasTypes m types
  | unread (hdescriptor : ∀ erased, renderMethodTypes m.descriptor ≠ .ok erased)
      (hsignature : ∀ text generic, m.signature = some text →
        renderMethodTypes text ≠ .ok generic) : HasTypes m ⟨[], m.descriptor⟩

/-- The types of the signature, if there is one and it can be read. -/
def Member.genericTypes? (m : Member) : Option MethodTypes :=
  m.signature.bind fun text => (renderMethodTypes text).toOption

theorem genericTypes?_eq_some (h : m.genericTypes? = some types) :
    ∃ text, m.signature = some text ∧ renderMethodTypes text = .ok types := by
  obtain ⟨text, hsignature, hread⟩ := Option.bind_eq_some_iff.mp h
  cases htext : renderMethodTypes text with
  | error e =>
    rw [htext] at hread
    cases hread
  | ok read =>
    rw [htext] at hread
    cases hread
    exact ⟨text, hsignature, htext⟩

theorem genericTypes?_of_read {text : String} (hsignature : m.signature = some text)
    (hread : renderMethodTypes text = .ok types) : m.genericTypes? = some types := by
  rw [Member.genericTypes?, hsignature, Option.bind_some, hread]
  rfl

theorem not_read_of_genericTypes? (h : m.genericTypes? = none) (text : String)
    (generic : MethodTypes) (hsignature : m.signature = some text) :
    renderMethodTypes text ≠ .ok generic := by
  intro hread
  rw [genericTypes?_of_read hsignature hread] at h
  cases h

theorem methodTypes_eq (m : Member) :
    m.methodTypes = match m.genericTypes?, (renderMethodTypes m.descriptor).toOption with
      | some g, some e => if g.parameters.length = e.parameters.length then g else e
      | none, some e => e
      | some g, none => g
      | none, none => ⟨[], m.descriptor⟩ := rfl

theorem methodTypes_of_descriptor {erased : MethodTypes}
    (h : renderMethodTypes m.descriptor = .ok erased) :
    m.methodTypes = match m.genericTypes? with
      | some g => if g.parameters.length = erased.parameters.length then g else erased
      | none => erased := by
  rw [methodTypes_eq, h]
  cases m.genericTypes? <;> rfl

theorem methodTypes_of_no_descriptor {e : SignatureError}
    (h : renderMethodTypes m.descriptor = .error e) :
    m.methodTypes = m.genericTypes?.getD ⟨[], m.descriptor⟩ := by
  rw [methodTypes_eq, h]
  cases m.genericTypes? <;> rfl

/-- The types of a record come from where they should, for every signature and every descriptor. -/
theorem hasTypes_methodTypes (m : Member) : HasTypes m m.methodTypes := by
  cases hdescriptor : renderMethodTypes m.descriptor with
  | error e =>
    have hnot (erased : MethodTypes) : renderMethodTypes m.descriptor ≠ .ok erased := by
      rw [hdescriptor]
      nofun
    rw [methodTypes_of_no_descriptor hdescriptor]
    cases hgeneric : m.genericTypes? with
    | none => exact .unread hnot (not_read_of_genericTypes? hgeneric)
    | some g =>
      obtain ⟨text, hsignature, hread⟩ := genericTypes?_eq_some hgeneric
      exact .genericOnly hnot hsignature hread
  | ok erased =>
    rw [methodTypes_of_descriptor hdescriptor]
    cases hgeneric : m.genericTypes? with
    | none =>
      exact .erased hdescriptor fun text generic hsignature hread =>
        absurd hread (not_read_of_genericTypes? hgeneric text generic hsignature)
    | some g =>
      by_cases hcount : g.parameters.length = erased.parameters.length
      · obtain ⟨text, hsignature, hread⟩ := genericTypes?_eq_some hgeneric
        simp only [if_pos hcount]
        exact .generic hsignature hread hdescriptor hcount
      · simp only [if_neg hcount]
        refine .erased hdescriptor fun text other hsignature hread => ?_
        rw [genericTypes?_of_read hsignature hread, Option.some.injEq] at hgeneric
        exact hgeneric ▸ hcount

/-- A method has the parameters of its descriptor in number, whatever its signature is. -/
theorem HasTypes.length_parameters (h : HasTypes m types) {erased : MethodTypes}
    (hdescriptor : renderMethodTypes m.descriptor = .ok erased) :
    types.parameters.length = erased.parameters.length := by
  cases h with
  | generic _ _ hread hcount =>
    rw [hread, Except.ok.injEq] at hdescriptor
    rw [hcount, hdescriptor]
  | erased hread _ =>
    rw [hread, Except.ok.injEq] at hdescriptor
    rw [hdescriptor]
  | genericOnly hnot _ _ => exact absurd hdescriptor (hnot erased)
  | unread hnot _ => exact absurd hdescriptor (hnot erased)

/-! ### Records of members -/

structure IsFieldOf (m : Member) (record : FieldRecord) : Prop where
  name : record.name = m.name
  isStatic : record.isStatic = m.flags.isStatic
  annotations : record.annotations = m.annotations.map annotationName

structure IsMethodOf (m : Member) (record : MethodRecord) : Prop where
  name : record.name = m.name
  types : HasTypes m ⟨record.parameterTypes, record.returnType⟩
  arity : ∀ erased, renderMethodTypes m.descriptor = .ok erased →
    record.parameterTypes.length = erased.parameters.length
  isStatic : record.isStatic = m.flags.isStatic
  annotations : record.annotations = m.annotations.map annotationName

structure IsConstructorOf (m : Member) (record : ConstructorRecord) : Prop where
  types : ∃ result, HasTypes m ⟨record.parameterTypes, result⟩
  arity : ∀ erased, renderMethodTypes m.descriptor = .ok erased →
    record.parameterTypes.length = erased.parameters.length
  annotations : record.annotations = m.annotations.map annotationName

theorem isFieldOf_toFieldRecord (m : Member) : IsFieldOf m m.toFieldRecord := ⟨rfl, rfl, rfl⟩

theorem isMethodOf_toMethodRecord (inInterface : Bool) (m : Member) :
    IsMethodOf m (m.toMethodRecord inInterface) :=
  ⟨rfl, hasTypes_methodTypes m, fun _ h => (hasTypes_methodTypes m).length_parameters h, rfl, rfl⟩

theorem isConstructorOf_toConstructorRecord (m : Member) :
    IsConstructorOf m m.toConstructorRecord :=
  ⟨⟨m.methodTypes.result, hasTypes_methodTypes m⟩,
    fun _ h => (hasTypes_methodTypes m).length_parameters h, rfl⟩

/-- The methods and the constructors that some members become, in the order of the members. -/
inductive Converted : List Member → List MethodRecord → List ConstructorRecord → Prop
  | nil : Converted [] [] []
  | constructor {m : Member} {record : ConstructorRecord} {members : List Member}
      {methods : List MethodRecord} {constructors : List ConstructorRecord}
      (hname : m.name = "<init>") (hrecord : IsConstructorOf m record)
      (h : Converted members methods constructors) :
      Converted (m :: members) methods (record :: constructors)
  | initialiser {m : Member} {members : List Member} {methods : List MethodRecord}
      {constructors : List ConstructorRecord} (hname : m.name = "<clinit>")
      (h : Converted members methods constructors) : Converted (m :: members) methods constructors
  | method {m : Member} {record : MethodRecord} {members : List Member}
      {methods : List MethodRecord} {constructors : List ConstructorRecord}
      (hconstructor : m.name ≠ "<init>") (hinitialiser : m.name ≠ "<clinit>")
      (hrecord : IsMethodOf m record) (h : Converted members methods constructors) :
      Converted (m :: members) (record :: methods) constructors

theorem converted_members (inInterface : Bool) (members : List Member) :
    Converted members
      ((members.filter fun m => Member.isMethodName m.name).map (Member.toMethodRecord inInterface))
      ((members.filter fun m => m.name == Member.constructorName).map Member.toConstructorRecord) := by
  induction members with
  | nil => exact .nil
  | cons m members ih =>
    by_cases hconstructor : m.name = Member.constructorName
    · rw [List.filter_cons_of_neg (by simp [Member.isMethodName, hconstructor]),
        List.filter_cons_of_pos (by simp [hconstructor])]
      exact .constructor hconstructor (isConstructorOf_toConstructorRecord m) ih
    · have hskip : (m :: members).filter (fun m => m.name == Member.constructorName) =
          members.filter fun m => m.name == Member.constructorName :=
        List.filter_cons_of_neg (by simp [hconstructor])
      rw [hskip]
      by_cases hinitialiser : m.name = Member.initialiserName
      · rw [List.filter_cons_of_neg (by simp [Member.isMethodName, hinitialiser])]
        exact .initialiser hinitialiser ih
      · rw [List.filter_cons_of_pos (by simp [Member.isMethodName, hconstructor, hinitialiser])]
        exact .method hconstructor hinitialiser (isMethodOf_toMethodRecord inInterface m) ih

/-- A record has a field for each field of the class file, a constructor for each method named `<init>`
and a method for each method with another name that is not `<clinit>`, in their order and nothing
else; each has as many parameters as its descriptor, with all types from one source. -/
theorem toRecord_members (file : ClassFile) :
    List.Forall₂ IsFieldOf file.fields file.toRecord.fields ∧
      Converted file.methods file.toRecord.methods file.toRecord.constructors := by
  constructor
  · show List.Forall₂ IsFieldOf file.fields (file.fields.map Member.toFieldRecord)
    induction file.fields with
    | nil => exact .nil
    | cons m fields ih => exact .cons (isFieldOf_toFieldRecord m) ih
  · exact converted_members file.flags.isInterface file.methods

-- The constructor of an enumeration, whose signature leaves out its first two parameters.
example : (Member.toConstructorRecord ⟨⟨2⟩, "<init>", "(Ljava/lang/String;ILjava/util/List;)V",
    some "(Ljava/util/List<Ljava/lang/String;>;)V", [], []⟩).parameterTypes =
      ["java.lang.String", "int", "java.util.List"] := by decide +kernel

end ClassReport
