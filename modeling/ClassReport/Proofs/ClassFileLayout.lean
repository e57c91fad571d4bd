import ClassReport.ClassFile.Parser
import ClassReport.Proofs.Reading

/-!
# The layout of a class file

A class file as a tree: the constants, and everything else with its references into them. A
reference carries the constant that it stands for, so a tree never points outside its pool or at a
constant of another kind. `ClassFile.encode` lays the tree out as bytes; `ClassFile.content` says what a
report keeps of it, without a word about bytes. What is left to ask of a tree is that every count and
length fits the field that holds it (`ClassFile.Fits`).
-/

namespace ClassReport.Layout
open Reader (bigEndian)

/-! ### Constants -/

/-- One of the seventeen kinds of constant. Indices into the pool may point anywhere. -/
inductive Constant where
  | utf8 (bytes : Bytes)
  | integer (value : UInt32)
  | float (bits : UInt32)
  | long (value : UInt64)
  | double (bits : UInt64)
  | classRef (name : UInt16)
  | string (text : UInt16)
  | fieldRef (owner nameAndType : UInt16)
  | methodRef (owner nameAndType : UInt16)
  | interfaceMethodRef (owner nameAndType : UInt16)
  | nameAndType (name descriptor : UInt16)
  | methodHandle (kind : UInt8) (reference : UInt16)
  | methodType (descriptor : UInt16)
  | dynamic (bootstrap nameAndType : UInt16)
  | invokeDynamic (bootstrap nameAndType : UInt16)
  | moduleRef (name : UInt16)
  | packageRef (name : UInt16)
  deriving DecidableEq, Repr

namespace Constant

def tag : Constant → UInt8
  | utf8 _ => 1
  | integer _ => 3
  | float _ => 4
  | long _ => 5
  | double _ => 6
  | classRef _ => 7
  | string _ => 8
  | fieldRef _ _ => 9
  | methodRef _ _ => 10
  | interfaceMethodRef _ _ => 11
  | nameAndType _ _ => 12
  | methodHandle _ _ => 15
  | methodType _ => 16
  | dynamic _ _ => 17
  | invokeDynamic _ _ => 18
  | moduleRef _ => 19
  | packageRef _ => 20

def body : Constant → Bytes
  | utf8 bytes => bigEndian 2 bytes.length ++ bytes
  | integer value | float value => bigEndian 4 value.toNat
  | long value | double value => bigEndian 8 value.toNat
  | classRef index | string index | methodType index | moduleRef index | packageRef index =>
    bigEndian 2 index.toNat
  | fieldRef first second | methodRef first second | interfaceMethodRef first second
  | nameAndType first second | dynamic first second | invokeDynamic first second =>
    bigEndian 2 first.toNat ++ bigEndian 2 second.toNat
  | methodHandle kind reference => kind :: bigEndian 2 reference.toNat

def encode (c : Constant) : Bytes := c.tag :: c.body

/-- How many slots of the pool the constant takes. -/
def width : Constant → Nat
  | long _ | double _ => 2
  | _ => 1

def Fits : Constant → Prop
  | utf8 bytes => bytes.length < 0x10000
  | _ => True

instance : DecidablePred Fits := fun c =>
  match c with
  | utf8 bytes => inferInstanceAs (Decidable (bytes.length < 0x10000))
  | integer _ | float _ | long _ | double _ | classRef _ | string _ | fieldRef _ _ | methodRef _ _
  | interfaceMethodRef _ _ | nameAndType _ _ | methodHandle _ _ | methodType _ | dynamic _ _
  | invokeDynamic _ _ | moduleRef _ | packageRef _ => isTrue trivial

end Constant

def slotCount : List Constant → Nat
  | [] => 0
  | c :: pool => c.width + slotCount pool

/-- The constant has that index: slot 0 is taken by nothing, and every constant before it takes its
slots. -/
def Stands (pool : List Constant) (index : UInt16) (c : Constant) : Prop :=
  ∃ before after, pool = before ++ c :: after ∧ index.toNat = 1 + slotCount before

structure TextRef (pool : List Constant) where
  index : UInt16
  bytes : Bytes
  stands : Stands pool index (.utf8 bytes)

structure ClassRef (pool : List Constant) where
  index : UInt16
  name : TextRef pool
  stands : Stands pool index (.classRef name.index)

variable {pool : List Constant}

def TextRef.text (ref : TextRef pool) : String := ModifiedUtf8.decode ref.bytes

def TextRef.encode (ref : TextRef pool) : Bytes := bigEndian 2 ref.index.toNat

def ClassRef.text (ref : ClassRef pool) : String := ref.name.text

def ClassRef.encode (ref : ClassRef pool) : Bytes := bigEndian 2 ref.index.toNat

/-! ### Annotations -/

/-- The kinds of value that are one constant. -/
inductive Literal where
  | byte
  | char
  | double
  | float
  | int
  | long
  | short
  | boolean
  | string
  | type
  deriving DecidableEq, Repr

def Literal.letter : Literal → Char
  | .byte => 'B'
  | .char => 'C'
  | .double => 'D'
  | .float => 'F'
  | .int => 'I'
  | .long => 'J'
  | .short => 'S'
  | .boolean => 'Z'
  | .string => 's'
  | .type => 'c'

/-- A value within an annotation. The indices of constants, of an enumeration's type and name, and of
element names are never looked up, so they may point anywhere. -/
inductive Value (pool : List Constant) : Type
  | literal (kind : Literal) (index : UInt16)
  | enumeration (type name : UInt16)
  | nested (type : TextRef pool) (pairs : List (UInt16 × Value pool))
  | array (values : List (Value pool))

def tagOf (letter : Char) : UInt8 := UInt8.ofNat letter.toNat

mutual
def Value.encode : Value pool → Bytes
  | .literal kind index => tagOf kind.letter :: bigEndian 2 index.toNat
  | .enumeration type name => tagOf 'e' :: (bigEndian 2 type.toNat ++ bigEndian 2 name.toNat)
  | .nested type pairs =>
    tagOf '@' :: (type.encode ++ (bigEndian 2 pairs.length ++ encodePairs pairs))
  | .array values => tagOf '[' :: (bigEndian 2 values.length ++ encodeValues values)
def encodeValues : List (Value pool) → Bytes
  | [] => []
  | value :: values => value.encode ++ encodeValues values
def encodePairs : List (UInt16 × Value pool) → Bytes
  | [] => []
  | (name, value) :: pairs => bigEndian 2 name.toNat ++ (value.encode ++ encodePairs pairs)
end

mutual
def Value.Fits : Value pool → Prop
  | .literal _ _ | .enumeration _ _ => True
  | .nested _ pairs => pairs.length < 0x10000 ∧ PairsFit pairs
  | .array values => values.length < 0x10000 ∧ ValuesFit values
def ValuesFit : List (Value pool) → Prop
  | [] => True
  | value :: values => value.Fits ∧ ValuesFit values
def PairsFit : List (UInt16 × Value pool) → Prop
  | [] => True
  | (_, value) :: pairs => value.Fits ∧ PairsFit pairs
end

structure AnnotationLayout (pool : List Constant) where
  type : TextRef pool
  pairs : List (UInt16 × Value pool)

namespace AnnotationLayout

def encode (a : AnnotationLayout pool) : Bytes :=
  a.type.encode ++ (bigEndian 2 a.pairs.length ++ encodePairs a.pairs)

def Fits (a : AnnotationLayout pool) : Prop := a.pairs.length < 0x10000 ∧ PairsFit a.pairs

def encodeList (list : List (AnnotationLayout pool)) : Bytes :=
  bigEndian 2 list.length ++ list.flatMap encode

def ListFits (list : List (AnnotationLayout pool)) : Prop := list.length < 0x10000 ∧ ∀ a ∈ list, a.Fits

def types (list : List (AnnotationLayout pool)) : List String := list.map fun a => a.type.text

end AnnotationLayout

/-! ### Members -/

/-- The body of an attribute. The bodies that are read may go on with any `extra` bytes. -/
inductive AttributeContent (pool : List Constant) : Type
  | signature (text : TextRef pool) (extra : Bytes)
  | annotations (visible : Bool) (list : List (AnnotationLayout pool)) (extra : Bytes)
  | parameterAnnotations (visible : Bool) (table : List (List (AnnotationLayout pool))) (extra : Bytes)
  | other (body : Bytes)

namespace AttributeContent

def knownNames : List String :=
  ["Signature", "RuntimeVisibleAnnotations", "RuntimeInvisibleAnnotations",
    "RuntimeVisibleParameterAnnotations", "RuntimeInvisibleParameterAnnotations"]

/-- Whether an attribute of that name has such a body. -/
def BelongsTo : AttributeContent pool → String → Prop
  | .signature _ _, name => name = "Signature"
  | .annotations visible _ _, name =>
    name = if visible then "RuntimeVisibleAnnotations" else "RuntimeInvisibleAnnotations"
  | .parameterAnnotations visible _ _, name =>
    name =
      if visible then "RuntimeVisibleParameterAnnotations"
      else "RuntimeInvisibleParameterAnnotations"
  | .other _, name => name ∉ knownNames

def encode : AttributeContent pool → Bytes
  | .signature text extra => text.encode ++ extra
  | .annotations _ list extra => AnnotationLayout.encodeList list ++ extra
  | .parameterAnnotations _ table extra =>
    (bigEndian 1 table.length ++ table.flatMap AnnotationLayout.encodeList) ++ extra
  | .other body => body

def Fits : AttributeContent pool → Prop
  | .signature _ _ | .other _ => True
  | .annotations _ list _ => AnnotationLayout.ListFits list
  | .parameterAnnotations _ table _ =>
    table.length < 0x100 ∧ ∀ list ∈ table, AnnotationLayout.ListFits list

def signature? : AttributeContent pool → Option String
  | .signature text _ => some text.text
  | _ => none

/-- The annotations of the member itself. -/
def annotationTypes : AttributeContent pool → List String
  | .annotations _ list _ => AnnotationLayout.types list
  | _ => []

/-- The annotations of the parameters, a list for each entry of the table. -/
def parameterTable : AttributeContent pool → List (List String)
  | .parameterAnnotations _ table _ => table.map AnnotationLayout.types
  | _ => []

end AttributeContent

structure Attribute (pool : List Constant) where
  name : TextRef pool
  content : AttributeContent pool
  named : content.BelongsTo name.text

namespace Attribute

def encode (a : Attribute pool) : Bytes :=
  a.name.encode ++ (bigEndian 4 a.content.encode.length ++ a.content.encode)

def Fits (a : Attribute pool) : Prop := a.content.encode.length < 0x100000000 ∧ a.content.Fits

end Attribute

structure Member (pool : List Constant) where
  flags : UInt16
  name : TextRef pool
  descriptor : TextRef pool
  attributes : List (Attribute pool)

namespace Member

def encode (m : Member pool) : Bytes :=
  bigEndian 2 m.flags.toNat ++ (m.name.encode ++ (m.descriptor.encode ++
    (bigEndian 2 m.attributes.length ++ m.attributes.flatMap Attribute.encode)))

def encodeList (list : List (Member pool)) : Bytes :=
  bigEndian 2 list.length ++ list.flatMap encode

def Fits (m : Member pool) : Prop :=
  m.attributes.length < 0x10000 ∧ ∀ a ∈ m.attributes, a.Fits

def ListFits (list : List (Member pool)) : Prop := list.length < 0x10000 ∧ ∀ m ∈ list, m.Fits

def tables (m : Member pool) : List (List (List String)) :=
  m.attributes.map fun a => a.content.parameterTable

/-- What a report keeps: of the generic types the last one, all annotations in the order of the
attributes, and for every parameter that some table has an entry for what all tables say of it. -/
def content (m : Member pool) : ClassReport.Member where
  flags := ⟨m.flags⟩
  name := m.name.text
  descriptor := m.descriptor.text
  signature := (m.attributes.filterMap fun a => a.content.signature?).getLast?
  annotations := m.attributes.flatMap fun a => a.content.annotationTypes
  parameterAnnotations :=
    (List.range ((m.tables.map List.length).foldl max 0)).map fun i =>
      m.tables.flatMap fun table => table.getD i []

end Member

/-! ### Class files -/

/-- An attribute of the class, which is stepped over. Its name is never looked up. -/
structure ClassAttribute where
  name : UInt16
  body : Bytes
  deriving DecidableEq, Repr

def ClassAttribute.encode (a : ClassAttribute) : Bytes :=
  bigEndian 2 a.name.toNat ++ (bigEndian 4 a.body.length ++ a.body)

structure ClassFile where
  minor : UInt16
  major : UInt16
  pool : List Constant
  flags : UInt16
  thisClass : ClassRef pool
  superClass : Option (ClassRef pool)
  interfaces : List (ClassRef pool)
  fields : List (Member pool)
  methods : List (Member pool)
  attributes : List ClassAttribute

namespace ClassFile

/-- The index of the superclass; 0 if there is none. -/
def encodeSuper : Option (ClassRef pool) → Bytes
  | none => bigEndian 2 0
  | some ref => ref.encode

def encode (file : ClassFile) : Bytes :=
  bigEndian 4 0xCAFEBABE ++ (bigEndian 2 file.minor.toNat ++ (bigEndian 2 file.major.toNat ++
    ((bigEndian 2 (1 + slotCount file.pool) ++ file.pool.flatMap Constant.encode) ++
    (bigEndian 2 file.flags.toNat ++ (file.thisClass.encode ++ (encodeSuper file.superClass ++
    (bigEndian 2 file.interfaces.length ++ (file.interfaces.flatMap ClassRef.encode ++
    (Member.encodeList file.fields ++ (Member.encodeList file.methods ++
    (bigEndian 2 file.attributes.length ++ file.attributes.flatMap ClassAttribute.encode)))))))))))

/-- Every count and length fits the field that holds it. -/
structure Fits (file : ClassFile) : Prop where
  slots : 1 + slotCount file.pool < 0x10000
  constants : ∀ c ∈ file.pool, c.Fits
  interfaces : file.interfaces.length < 0x10000
  fields : Member.ListFits file.fields
  methods : Member.ListFits file.methods
  attributeCount : file.attributes.length < 0x10000
  attributeLength : ∀ a ∈ file.attributes, a.body.length < 0x100000000

/-- What a report keeps of the file. -/
def content (file : ClassFile) : ClassReport.ClassFile where
  flags := ⟨file.flags⟩
  thisClass := file.thisClass.text
  superClass := file.superClass.map ClassRef.text
  interfaces := file.interfaces.map ClassRef.text
  fields := file.fields.map Member.content
  methods := file.methods.map Member.content

end ClassFile

end ClassReport.Layout
