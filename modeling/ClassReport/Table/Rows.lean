import ClassReport.ClassRecord.Basic

/-!
# Tables of members

What the tables of methods, fields and constructors hold: a header record, and a record for each
member that is reported, class by class.
-/

namespace ClassReport

/-- What a table lists. -/
inductive TableKind where
  | methods
  | fields
  | constructors
  deriving DecidableEq, Repr

namespace TableKind

def label : TableKind → String
  | .methods => "Methods"
  | .fields => "Fields"
  | .constructors => "Constructors"

def header : TableKind → List String
  | .methods =>
    ["source-path", "class-name", "method-name", "return-type", "parameters", "modifiers",
      "is-static", "method-annotations", "parameter-annotations"]
  | .fields =>
    ["source-path", "class-name", "field-name", "field-type", "modifiers", "is-static",
      "field-annotations"]
  | .constructors =>
    ["source-path", "class-name", "parameters", "modifiers", "constructor-annotations",
      "parameter-annotations"]

end TableKind

namespace Table

/-- Annotations as one cell. -/
def joinAnnotations (names : List String) : String := "|".intercalate names

/-- The annotations of all parameters as one cell, a group for each parameter; nothing if no parameter
has any. -/
def joinGroups (groups : List (List String)) : String :=
  if groups.all List.isEmpty then "" else ";".intercalate (groups.map joinAnnotations)

def joinTypes (types : List String) : String := ", ".intercalate types

def flagCell (flag : Bool) : String := if flag then "true" else "false"

def methodRow (source className : String) (m : MethodRecord) : List String :=
  [source, className, m.name, m.returnType, joinTypes m.parameterTypes, m.modifiers,
    flagCell m.isStatic, joinAnnotations m.annotations, joinGroups m.parameterAnnotations]

def fieldRow (source className : String) (f : FieldRecord) : List String :=
  [source, className, f.name, f.type, f.modifiers, flagCell f.isStatic,
    joinAnnotations f.annotations]

def constructorRow (source className : String) (c : ConstructorRecord) : List String :=
  [source, className, joinTypes c.parameterTypes, c.modifiers, joinAnnotations c.annotations,
    joinGroups c.parameterAnnotations]

def classRows (kind : TableKind) (source : String) (record : ClassRecord) : List (List String) :=
  match kind with
  | .methods => record.reportableMethods.map (methodRow source record.name)
  | .fields => record.sortedFields.map (fieldRow source record.name)
  | .constructors => record.sortedConstructors.map (constructorRow source record.name)

/-- The records of the members of some classes, in the order of the classes. -/
def rows (kind : TableKind) (source : String) (classes : List ClassRecord) : List (List String) :=
  classes.flatMap (classRows kind source)

end Table

end ClassReport
