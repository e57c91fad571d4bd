import ClassReport.ClassFile.Basic
import ClassReport.ClassRecord.Basic
import ClassReport.Signature.Parser

/-!
# From class files to records

Every field becomes a field record, every member named `<init>` a constructor record, and every
other method except `<clinit>` a method record. Generic signatures are preferred to descriptors
where both tell of the same number of parameters.
-/

namespace ClassReport

namespace Member

def constructorName : String := "<init>"

def initialiserName : String := "<clinit>"

/-- Whether a method of that name is called by its name. -/
def isMethodName (name : String) : Bool := name != constructorName && name != initialiserName

/-- A field's type: the generic one if it can be read, else the erased one, else the descriptor as
it stands. -/
def fieldType (member : Member) : String :=
  match member.signature.map renderFieldType with
  | some (.ok type) => type
  | _ =>
    match renderFieldType member.descriptor with
    | .ok type => type
    | .error _ => member.descriptor

/-- A method's types. The generic ones must have as many parameters as the erased ones, as they may
leave out parameters that only the compiler knows of. -/
def methodTypes (member : Member) : MethodTypes :=
  let generic := member.signature.bind fun text => (renderMethodTypes text).toOption
  match generic, (renderMethodTypes member.descriptor).toOption with
  | some g, some e => if g.parameters.length = e.parameters.length then g else e
  | none, some e => e
  | some g, none => g
  | none, none => ⟨[], member.descriptor⟩

/-- The annotation names of each parameter. A table that is too short lacks its first entries. -/
def parameterAnnotationNames (member : Member) (parameterCount : Nat) : List (List String) :=
  List.replicate (parameterCount - member.parameterAnnotations.length) [] ++
    member.parameterAnnotations.map (·.map annotationName)

def toFieldRecord (member : Member) : FieldRecord where
  name := member.name
  type := member.fieldType
  modifiers := member.flags.renderField
  isStatic := member.flags.isStatic
  annotations := member.annotations.map annotationName

/-- Whether the member, as a method of an interface, has a body that its implementers inherit. -/
def isDefaultMethod (member : Member) : Bool :=
  !(member.flags.isAbstract || member.flags.isStatic || member.flags.isPrivate)

/-- The modifiers of a method, with `default` where it applies. -/
def methodModifiers (inInterface : Bool) (member : Member) : String :=
  let words := member.flags.renderMethod
  if inInterface && member.isDefaultMethod then
    if words.isEmpty then "default" else words ++ " default"
  else words

def toMethodRecord (inInterface : Bool) (member : Member) : MethodRecord where
  name := member.name
  returnType := member.methodTypes.result
  parameterTypes := member.methodTypes.parameters
  modifiers := member.methodModifiers inInterface
  isStatic := member.flags.isStatic
  annotations := member.annotations.map annotationName
  parameterAnnotations :=
    member.parameterAnnotationNames member.methodTypes.parameters.length

def toConstructorRecord (member : Member) : ConstructorRecord where
  parameterTypes := member.methodTypes.parameters
  modifiers := member.flags.renderMethod
  annotations := member.annotations.map annotationName
  parameterAnnotations :=
    member.parameterAnnotationNames member.methodTypes.parameters.length

end Member

namespace ClassFile

/-- The root of the hierarchy, which no report shows as a superclass. -/
def rootClass : String := "java/lang/Object"

def toRecord (file : ClassFile) : ClassRecord where
  name := binaryName file.thisClass
  package := packageOf (binaryName file.thisClass)
  kind := ClassKind.ofFlags file.flags
  superclass := (file.superClass.filter (· != rootClass)).map binaryName
  interfaces := file.interfaces.map binaryName
  fields := file.fields.map Member.toFieldRecord
  methods := (file.methods.filter fun m => Member.isMethodName m.name).map
    (Member.toMethodRecord file.flags.isInterface)
  constructors := (file.methods.filter fun m => m.name == Member.constructorName).map
    Member.toConstructorRecord

end ClassFile

end ClassReport
