import ClassReport.ClassRecord.Basic

/-!
# Listings

The text that the console shows for a class: one indented line, or a block with the hierarchy and
the members. A section without members has no title.
-/

namespace ClassReport.Listing

def line (text : String) : String := text ++ "\n"

def plain (record : ClassRecord) : String := line ("  " ++ record.name)

/-- Modifiers, if there are any, and the words behind them, separated by blanks. -/
def declaration (modifiers : String) (words : List String) : String :=
  " ".intercalate (if modifiers.isEmpty then words else modifiers :: words)

def fieldLine (field : FieldRecord) : String :=
  line ("      " ++ declaration field.modifiers [field.type, field.name] ++
    if field.isStatic then " (class variable)" else " (instance variable)")

def methodLine (method : MethodRecord) : String :=
  line ("      " ++ declaration method.modifiers [method.returnType, method.name] ++
    "(" ++ ", ".intercalate method.parameterTypes ++ ")")

/-- The line of a constructor of the class with that simple name. -/
def constructorLine (simpleName : String) (constructor : ConstructorRecord) : String :=
  line ("      " ++ declaration constructor.modifiers [simpleName] ++
    "(" ++ ", ".intercalate constructor.parameterTypes ++ ")")

/-- A title and the lines under it; nothing if there are none. -/
def sectionLines (title : String) (lines : List String) : List String :=
  if lines.isEmpty then [] else line ("    " ++ title ++ ":") :: lines

def headLines (record : ClassRecord) : List String :=
  [line ("  " ++ record.name), line ("    Type: " ++ record.kind.label)] ++
    (match record.superclass with
      | some superclass => [line ("    Superclass: " ++ superclass)]
      | none => []) ++
    (if record.interfaces.isEmpty then []
      else [line ("    Interfaces: " ++ ", ".intercalate record.interfaces)]) ++
    [line ("    Package: " ++ record.package)]

/-- The lines of the block, with a blank one at the end. -/
def verboseLines (record : ClassRecord) : List String :=
  headLines record ++
    sectionLines "Fields" (record.sortedFields.map fieldLine) ++
    sectionLines "Methods" (record.reportableMethods.map methodLine) ++
    sectionLines "Constructors" (record.sortedConstructors.map (constructorLine record.simpleName)) ++
    [line ""]

def verbose (record : ClassRecord) : String := String.join (verboseLines record)

end ClassReport.Listing
