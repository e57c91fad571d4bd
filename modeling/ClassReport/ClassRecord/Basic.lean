import ClassReport.AccessFlags
import ClassReport.Text.Segment

/-!
# Class records

A class as a report shows it: dotted names, types in source form, modifiers as words. The members
come in the order in which they are declared; the orders of a report are views of them.
-/

namespace ClassReport

structure FieldRecord where
  name : String
  type : String
  modifiers : String
  isStatic : Bool
  annotations : List String
  deriving DecidableEq, Repr, Inhabited

structure MethodRecord where
  name : String
  returnType : String
  parameterTypes : List String
  modifiers : String
  isStatic : Bool
  annotations : List String
  parameterAnnotations : List (List String)
  deriving DecidableEq, Repr, Inhabited

structure ConstructorRecord where
  parameterTypes : List String
  modifiers : String
  annotations : List String
  parameterAnnotations : List (List String)
  deriving DecidableEq, Repr, Inhabited

structure ClassRecord where
  name : String
  package : String
  kind : ClassKind
  superclass : Option String
  interfaces : List String
  fields : List FieldRecord
  methods : List MethodRecord
  constructors : List ConstructorRecord
  deriving DecidableEq, Repr, Inhabited

/-- The package of a class: all before the last dot of its name. -/
def packageOf (className : String) : String := Segment.beforeLast '.' className

/-- Whether a method of that name is reported: constructors, initialisers and the bodies of lambda
expressions are not. -/
def isReportableMethod (name : String) : Bool :=
  name != "<init>" && name != "<clinit>" && !Segment.contains "lambda$" name

namespace ClassRecord

/-- The name without package and enclosing classes: `a.b.Outer$Inner` is `Inner`. -/
def simpleName (record : ClassRecord) : String :=
  Segment.last (· == '$') (Segment.last (· == '.') record.name)

/-- The fields by name; fields of one name keep their order. -/
def sortedFields (record : ClassRecord) : List FieldRecord :=
  record.fields.mergeSort fun a b => decide (a.name ≤ b.name)

/-- The methods that are reported, by name; methods of one name keep their order. -/
def reportableMethods (record : ClassRecord) : List MethodRecord :=
  (record.methods.filter fun m => isReportableMethod m.name).mergeSort
    fun a b => decide (a.name ≤ b.name)

/-- The constructors by number of parameters; equally long ones keep their order. -/
def sortedConstructors (record : ClassRecord) : List ConstructorRecord :=
  record.constructors.mergeSort
    fun a b => decide (a.parameterTypes.length ≤ b.parameterTypes.length)

end ClassRecord

end ClassReport
