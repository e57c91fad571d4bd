import ClassReport.ClassFile.Annotations

/-!
# Reading a class file

`ClassFile.parse` reads the header, the pool, the hierarchy and the members. Of the attributes of a
member the generic signature and the annotations are kept; attributes of other names, and all
those of the class itself, are stepped over by their declared length. Bytes behind the class are
not looked at.
-/

namespace ClassReport

/-- What an attribute of a member tells a report. -/
inductive MemberAttribute where
  | signature (text : String)
  | annotations (types : List String)
  /-- Annotations of the parameters, a list for each entry of the table. -/
  | parameterAnnotations (groups : List (List String))
  | other
  deriving DecidableEq, Repr

namespace MemberAttribute

/-- The body of the attribute with that name. -/
def readBody (pool : ConstantPool) (name : String) : Reader MemberAttribute :=
  match name with
  | "Signature" => do
    let text ← pool.readUtf8
    pure (.signature text)
  | "RuntimeVisibleAnnotations" | "RuntimeInvisibleAnnotations" => do
    let types ← Annotations.readList pool
    pure (.annotations types)
  | "RuntimeVisibleParameterAnnotations" | "RuntimeInvisibleParameterAnnotations" => do
    let count ← Reader.u1
    let groups ← Reader.readMany count.toNat (Annotations.readList pool)
    pure (.parameterAnnotations groups)
  | _ => pure .other

/-- An attribute: its name, its length, and so many bytes of body. -/
def read (pool : ConstantPool) : Reader MemberAttribute := do
  let name ← pool.readUtf8
  let length ← Reader.u4
  Reader.within length.toNat (readBody pool name)

end MemberAttribute

namespace Member

/-- Two tables of parameter annotations as one: entries of the same position are put together. -/
def mergeGroups : List (List String) → List (List String) → List (List String)
  | [], groups => groups
  | groups, [] => groups
  | first :: groups, second :: more => (first ++ second) :: mergeGroups groups more

/-- The member with one more attribute. A second signature takes the place of the first. -/
def withAttribute (member : Member) : MemberAttribute → Member
  | .signature text => { member with signature := some text }
  | .annotations types => { member with annotations := member.annotations ++ types }
  | .parameterAnnotations groups =>
    { member with parameterAnnotations := mergeGroups member.parameterAnnotations groups }
  | .other => member

/-- A member: flags, name, descriptor and a counted list of attributes. -/
def read (pool : ConstantPool) : Reader Member := do
  let flags ← Reader.u2
  let name ← pool.readUtf8
  let descriptor ← pool.readUtf8
  let count ← Reader.u2
  let attributes ← Reader.readMany count.toNat (MemberAttribute.read pool)
  pure (attributes.foldl withAttribute
    { flags := ⟨flags⟩, name, descriptor, signature := none, annotations := [],
      parameterAnnotations := [] })

def readList (pool : ConstantPool) : Reader (List Member) := do
  let count ← Reader.u2
  Reader.readMany count.toNat (read pool)

end Member

namespace ClassFile

/-- The four bytes that open every class file. -/
def magic : UInt32 := 0xCAFEBABE

/-- The name of the superclass; index 0 stands for none. -/
def readSuperClass (pool : ConstantPool) : Reader (Option String) := do
  let index ← Reader.u2
  if index = 0 then pure none
  else
    let name ← pool.className index
    pure (some name)

def skipAttribute : Reader Unit := do
  let _ ← Reader.u2
  let length ← Reader.u4
  let _ ← Reader.slice length.toNat
  pure ()

/-- A class file, from its first byte to the last of its attributes. -/
def read : Reader ClassFile := do
  let opening ← Reader.u4
  if opening ≠ magic then throw .invalidMagic
  let _minor ← Reader.u2
  let _major ← Reader.u2
  let pool ← ConstantPool.read
  let flags ← Reader.u2
  let thisClass ← pool.readClassName
  let superClass ← readSuperClass pool
  let interfaceCount ← Reader.u2
  let interfaces ← Reader.readMany interfaceCount.toNat pool.readClassName
  let fields ← Member.readList pool
  let methods ← Member.readList pool
  let attributeCount ← Reader.u2
  let _ ← Reader.readMany attributeCount.toNat skipAttribute
  pure { flags := ⟨flags⟩, thisClass, superClass, interfaces, fields, methods }

/-- The class file that the bytes start with. -/
def parse (bs : Bytes) : Except ClassFileError ClassFile :=
  (read bs).map Prod.fst

end ClassFile

end ClassReport
