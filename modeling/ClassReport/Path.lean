import ClassReport.Text.Segment

/-!
# Paths

Paths are texts with `/` between their parts. Two spellings are one path when their components are
the same: repeated and closing slashes and the parts `.` inside a path make no difference, while
`..` and a leading `.` do.
-/

namespace ClassReport.Path

/-- A part of a path that tells it from others. -/
inductive Component where
  | root
  /-- A `.` in front of a relative path. -/
  | current
  | parent
  | normal (name : String)
  deriving DecidableEq, Repr

def isAbsolute (path : String) : Bool := path.toList.head? == some '/'

/-- The parts between slashes that are not empty. -/
def parts (path : String) : List String :=
  ((Segment.split (· == '/') path.toList).filter (!·.isEmpty)).map String.ofList

/-- The component of a part behind the first. -/
def Component.ofPart? (part : String) : Option Component :=
  if part = "." then none
  else if part = ".." then some .parent
  else some (.normal part)

def components (path : String) : List Component :=
  if isAbsolute path then .root :: (parts path).filterMap Component.ofPart?
  else
    match parts path with
    | "." :: others => .current :: others.filterMap Component.ofPart?
    | all => all.filterMap Component.ofPart?

/-- The last component, where that is a name. -/
def fileName? (path : String) : Option String :=
  match (components path).getLast? with
  | some (.normal name) => some name
  | _ => none

/-- What stands behind the last dot of the file name. A dot in front of the name makes no
extension. -/
def extension? (path : String) : Option String :=
  match fileName? path with
  | some name =>
    if (Segment.beforeLast '.' name).isEmpty then none else some (Segment.last (· == '.') name)
  | none => none

/-- Whether the path is a lone dash, in any spelling: it stands for standard input. -/
def isStandardInput (path : String) : Bool := components path == [.normal "-"]

def isClassFile (path : String) : Bool := extension? path == some "class"

/-- Whether an entry describes a module or a package and holds no type of its own. -/
def isDescriptorClass (entry : String) : Bool :=
  let name := Segment.last (fun c => c == '/' || c == '\\') entry
  name == "module-info.class" || name == "package-info.class"

def join (directory name : String) : String :=
  if directory.toList.getLast? = some '/' then directory ++ name else directory ++ "/" ++ name

end ClassReport.Path
