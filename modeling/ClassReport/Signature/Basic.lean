/-!
# Java types

The types that descriptors and generic signatures denote, with their two written forms: `text` is
the compact form that class files use, `render` the form of Java source. A descriptor is a
signature without type variables and arguments, so one type serves for both.
-/

namespace ClassReport

/-- The types that are no objects, and `void`. -/
inductive Primitive where
  | byte
  | char
  | double
  | float
  | int
  | long
  | short
  | boolean
  | void
  deriving DecidableEq, Repr

namespace Primitive

def all : List Primitive := [.byte, .char, .double, .float, .int, .long, .short, .boolean, .void]

def letter : Primitive → Char
  | .byte => 'B'
  | .char => 'C'
  | .double => 'D'
  | .float => 'F'
  | .int => 'I'
  | .long => 'J'
  | .short => 'S'
  | .boolean => 'Z'
  | .void => 'V'

def keyword : Primitive → String
  | .byte => "byte"
  | .char => "char"
  | .double => "double"
  | .float => "float"
  | .int => "int"
  | .long => "long"
  | .short => "short"
  | .boolean => "boolean"
  | .void => "void"

def ofLetter? (c : Char) : Option Primitive := all.find? fun p => p.letter == c

theorem ofLetter?_letter (p : Primitive) : ofLetter? p.letter = some p := by
  cases p <;> rfl

end Primitive

/-- Which types a type argument admits. -/
inductive Bound where
  | exact
  | extends
  | super
  deriving DecidableEq, Repr

namespace Bound

/-- The mark before the type in the compact form. -/
def mark : Bound → List Char
  | .exact => []
  | .extends => ['+']
  | .super => ['-']

/-- The words before the type in source form. -/
def words : Bound → String
  | .exact => ""
  | .extends => "? extends "
  | .super => "? super "

end Bound

mutual
inductive JavaType where
  | primitive (type : Primitive)
  | variable (name : List Char)
  | array (element : JavaType)
  | object (type : ClassType)
/-- A class and the classes inside it, outermost first. -/
inductive ClassType where
  | innermost (name : List Char) (arguments : TypeArguments)
  | enclosing (name : List Char) (arguments : TypeArguments) (inner : ClassType)
/-- What stands between angle brackets, if there are any. -/
inductive TypeArguments where
  | none
  | some (list : ArgumentList)
inductive ArgumentList where
  | nil
  | wildcard (rest : ArgumentList)
  | bounded (bound : Bound) (type : JavaType) (rest : ArgumentList)
end

/-- An internal name as Java writes it: `java/lang/String` becomes `java.lang.String`. -/
def binaryName (internal : String) : String := internal.map fun c => if c = '/' then '.' else c

/-! ### The compact form -/

mutual
def JavaType.text : JavaType → List Char
  | .primitive p => [p.letter]
  | .variable name => 'T' :: name ++ [';']
  | .array element => '[' :: element.text
  | .object type => 'L' :: type.text
def ClassType.text : ClassType → List Char
  | .innermost name arguments => name ++ arguments.text ++ [';']
  | .enclosing name arguments inner => name ++ arguments.text ++ '.' :: inner.text
def TypeArguments.text : TypeArguments → List Char
  | .none => []
  | .some list => '<' :: list.text
def ArgumentList.text : ArgumentList → List Char
  | .nil => ['>']
  | .wildcard rest => '*' :: rest.text
  | .bounded bound type rest => bound.mark ++ type.text ++ rest.text
end

/-! ### The source form -/

mutual
/-- The type as Java source writes it, with inner classes behind a dollar sign. -/
def JavaType.render : JavaType → String
  | .primitive p => p.keyword
  | .variable name => String.ofList name
  | .array element => element.render ++ "[]"
  | .object type => type.render
def ClassType.render : ClassType → String
  | .innermost name arguments => binaryName (String.ofList name) ++ arguments.render
  | .enclosing name arguments inner =>
    binaryName (String.ofList name) ++ arguments.render ++ "$" ++ inner.render
def TypeArguments.render : TypeArguments → String
  | .none => ""
  | .some list => "<" ++ ", ".intercalate list.renderEach ++ ">"
def ArgumentList.renderEach : ArgumentList → List String
  | .nil => []
  | .wildcard rest => "?" :: rest.renderEach
  | .bounded bound type rest => (bound.words ++ type.render) :: rest.renderEach
end

end ClassReport
