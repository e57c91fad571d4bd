/-!
# Access flags

The sixteen flag bits of a class or a member, the kind of type they announce, and the words a
declaration shows for them. Some bits mean one thing on a field and another on a method, so the
words are read from one table for each.
-/

namespace ClassReport

/-- The flag bits of a class, a field or a method. -/
structure AccessFlags where
  bits : UInt16
  deriving DecidableEq, Repr, Inhabited

namespace AccessFlags

/-- Whether one of the bits of `mask` is set. -/
def has (flags : AccessFlags) (mask : UInt16) : Bool := flags.bits &&& mask != 0

def isPrivate (flags : AccessFlags) : Bool := flags.has 0x0002

/-- Belongs to the class and not to its instances. -/
def isStatic (flags : AccessFlags) : Bool := flags.has 0x0008

def isInterface (flags : AccessFlags) : Bool := flags.has 0x0200

/-- Has no body, or cannot be instantiated. -/
def isAbstract (flags : AccessFlags) : Bool := flags.has 0x0400

def isAnnotationType (flags : AccessFlags) : Bool := flags.has 0x2000

def isEnum (flags : AccessFlags) : Bool := flags.has 0x4000

/-- The words that a field shows, in the order in which they are written. -/
def fieldModifiers : List (UInt16 × String) :=
  [(0x0001, "public"), (0x0004, "protected"), (0x0002, "private"), (0x0008, "static"),
    (0x0010, "final"), (0x0080, "transient"), (0x0040, "volatile")]

/-- The words that a method shows, in the order in which they are written. The bits 0x0040 and
0x0080 mark bridges and variable arity on methods and have no word. -/
def methodModifiers : List (UInt16 × String) :=
  [(0x0001, "public"), (0x0004, "protected"), (0x0002, "private"), (0x0400, "abstract"),
    (0x0008, "static"), (0x0010, "final"), (0x0020, "synchronized"), (0x0100, "native"),
    (0x0800, "strictfp")]

/-- The words of a table whose bits are set, in table order. -/
def words (flags : AccessFlags) (table : List (UInt16 × String)) : List String :=
  (table.filter fun entry => flags.has entry.1).map Prod.snd

def renderField (flags : AccessFlags) : String := " ".intercalate (flags.words fieldModifiers)

def renderMethod (flags : AccessFlags) : String := " ".intercalate (flags.words methodModifiers)

end AccessFlags

/-- What kind of type a class file declares. -/
inductive ClassKind where
  | interface
  | abstractClass
  | enumeration
  | annotationType
  | plainClass
  deriving DecidableEq, Repr, Inhabited

namespace ClassKind

/-- Only the first flag met counts: interface, then abstract, then enumeration, then annotation. -/
def ofFlags (flags : AccessFlags) : ClassKind :=
  if flags.isInterface then .interface
  else if flags.isAbstract then .abstractClass
  else if flags.isEnum then .enumeration
  else if flags.isAnnotationType then .annotationType
  else .plainClass

/-- The kind as a listing shows it. -/
def label : ClassKind → String
  | .interface => "Interface"
  | .abstractClass => "Abstract Class"
  | .enumeration => "Enum"
  | .annotationType => "Annotation"
  | .plainClass => "Class"

end ClassKind

end ClassReport
