import ClassReport.AccessFlags
import ClassReport.Text.QuotedChar

/-!
# Class files

What a report needs of a class file: flags, hierarchy, and the members with their descriptors,
generic signatures and annotation types. Names are in internal form, `java/lang/String`.
-/

namespace ClassReport

/-- A field or a method. -/
structure Member where
  flags : AccessFlags
  name : String
  /-- The erased type, such as `(I)V`. -/
  descriptor : String
  /-- The generic type, where the file gives one. -/
  signature : Option String
  annotations : List String
  /-- One list of annotation type descriptors for each parameter in the file's tables. -/
  parameterAnnotations : List (List String)
  deriving DecidableEq, Repr, Inhabited

/-- The structure that a class file declares. -/
structure ClassFile where
  flags : AccessFlags
  thisClass : String
  superClass : Option String
  interfaces : List String
  fields : List Member
  methods : List Member
  deriving DecidableEq, Repr, Inhabited

/-- Why some bytes are no class file. -/
inductive ClassFileError where
  | unexpectedEnd
  | invalidMagic
  | unsupportedConstant (tag : UInt8)
  /-- An index names no constant of the kind that is wanted there. -/
  | invalidConstantIndex (index : UInt16)
  | invalidElementTag (tag : UInt8)
  deriving DecidableEq, Repr

def ClassFileError.message : ClassFileError → String
  | .unexpectedEnd => "unexpected end of class file"
  | .invalidMagic => "invalid class file magic header"
  | .unsupportedConstant tag => s!"unsupported constant pool tag {tag.toNat}"
  | .invalidConstantIndex index => s!"invalid constant pool index {index.toNat}"
  | .invalidElementTag tag => "unknown annotation element tag " ++ QuotedChar.render tag

end ClassReport
