/-!
# Segments of a text

The pieces of a text between separators, what stands behind the last separator and before it, and
whether one text stands inside another.
-/

namespace ClassReport.Segment

/-- The pieces between the separators, empty ones included: always one more than separators. -/
def split (isSeparator : Char → Bool) : List Char → List (List Char)
  | [] => [[]]
  | c :: rest =>
    if isSeparator c then [] :: split isSeparator rest
    else
      match split isSeparator rest with
      | [] => [[c]]
      | first :: others => (c :: first) :: others

/-- The characters behind the last one that is a separator; all of them if none is. -/
def last (isSeparator : Char → Bool) (text : String) : String :=
  String.ofList ((text.toList.reverse.takeWhile fun c => !isSeparator c).reverse)

/-- The characters before the last `separator`; none if it does not occur. -/
def beforeLast (separator : Char) (text : String) : String :=
  String.ofList (((text.toList.reverse.dropWhile (· != separator)).drop 1).reverse)

/-- Whether `part` occurs in the characters as one uninterrupted run. -/
def occursIn (part : List Char) : List Char → Bool
  | [] => part.isEmpty
  | c :: rest => part.isPrefixOf (c :: rest) || occursIn part rest

def contains (part text : String) : Bool := occursIn part.toList text.toList

def startsWith (start text : String) : Bool := start.toList.isPrefixOf text.toList

end ClassReport.Segment
