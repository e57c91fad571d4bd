import ClassReport.Signature.Basic

/-!
# Reading signatures

Each reader takes a type, or a part of one, off the front of the characters and leaves the rest.
What it leaves comes with a proof that it is shorter than what it was given, and that ends every
recursion. `renderFieldType` and `MethodTypes.parse` are the two ways in: a field's type is read off
the front and nothing behind it is looked at; neither is what follows a method's return type.
-/

namespace ClassReport

namespace Signature

/-- A value, and a rest that is shorter than the characters it was read from. -/
abbrev Step (α : Type) (cs : List Char) : Type :=
  Option { step : α × List Char // step.2.length < cs.length }

/-- What the name of a segment of a class type cannot contain. -/
def endsSegment (c : Char) : Bool := c == ';' || c == '<' || c == '.'

/-- The characters before the first that stops. -/
def upTo (stop : Char → Bool) (cs : List Char) : List Char := cs.takeWhile fun c => !stop c

/-- The characters from the first that stops. -/
def since (stop : Char → Bool) (cs : List Char) : List Char := cs.dropWhile fun c => !stop c

theorem upTo_append_since (stop : Char → Bool) (cs : List Char) :
    upTo stop cs ++ since stop cs = cs := List.takeWhile_append_dropWhile

theorem length_upTo_add (stop : Char → Bool) (cs : List Char) :
    (upTo stop cs).length + (since stop cs).length = cs.length := by
  rw [← List.length_append, upTo_append_since]

theorem length_since_lt {stop : Char → Bool} {cs : List Char} (h : upTo stop cs ≠ []) :
    (since stop cs).length < cs.length := by
  have hadd := length_upTo_add stop cs
  have hpos := List.length_pos_iff.mpr h
  omega

/-- The bound that a mark announces, and what stands behind the mark. -/
def bound : List Char → Bound × List Char
  | '+' :: rest => (.extends, rest)
  | '-' :: rest => (.super, rest)
  | cs => (.exact, cs)

theorem length_bound_le (cs : List Char) : (bound cs).2.length ≤ cs.length := by
  unfold bound
  split <;> simp

mutual

def type (cs : List Char) : Step JavaType cs :=
  match cs with
  | [] => none
  | '[' :: rest =>
    match type rest with
    | some ⟨(element, left), h⟩ => some ⟨(.array element, left), Nat.lt_succ_of_lt h⟩
    | none => none
  | 'L' :: rest =>
    match classType rest with
    | some ⟨(named, left), h⟩ => some ⟨(.object named, left), Nat.lt_succ_of_lt h⟩
    | none => none
  | 'T' :: rest =>
    if upTo (· == ';') rest = [] ∨ since (· == ';') rest = [] then none
    else some ⟨(.variable (upTo (· == ';') rest), (since (· == ';') rest).tail), by
      have hadd := length_upTo_add (· == ';') rest
      rw [List.length_tail, List.length_cons]
      omega⟩
  | c :: rest =>
    match Primitive.ofLetter? c with
    | some p => some ⟨(.primitive p, rest), Nat.lt_succ_self _⟩
    | none => none
termination_by 2 * cs.length

/-- The segments of a class type and its closing semicolon. -/
def classType (cs : List Char) : Step ClassType cs :=
  if hname : upTo endsSegment cs = [] then none
  else
    have hlt := length_since_lt hname
    match typeArguments (since endsSegment cs) with
    | some ⟨(arguments, rest), h⟩ =>
      have hle : rest.length ≤ (since endsSegment cs).length := h
      have hrest : rest.length - 1 < cs.length := by omega
      if rest.head? = some ';' then
        some ⟨(.innermost (upTo endsSegment cs) arguments, rest.tail), by
          rw [List.length_tail]
          exact hrest⟩
      else if rest.head? = some '.' then
        match classType rest.tail with
        | some ⟨(inner, left), hl⟩ =>
          some ⟨(.enclosing (upTo endsSegment cs) arguments inner, left), by
            rw [List.length_tail] at hl
            exact Nat.lt_trans hl hrest⟩
        | none => none
      else none
    | none => none
termination_by 2 * cs.length

def typeArguments (cs : List Char) :
    Option { step : TypeArguments × List Char // step.2.length ≤ cs.length } :=
  match cs with
  | '<' :: rest =>
    match argumentList rest with
    | some ⟨(list, left), h⟩ => some ⟨(.some list, left), Nat.le_succ_of_le (Nat.le_of_lt h)⟩
    | none => none
  | cs => some ⟨(.none, cs), Nat.le_refl _⟩
termination_by 2 * cs.length

def argumentList (cs : List Char) : Step ArgumentList cs :=
  match cs with
  | '>' :: rest => some ⟨(.nil, rest), Nat.lt_succ_self _⟩
  | '*' :: rest =>
    match argumentList rest with
    | some ⟨(list, left), h⟩ => some ⟨(.wildcard list, left), Nat.lt_succ_of_lt h⟩
    | none => none
  | cs =>
    have hle := length_bound_le cs
    match type (bound cs).2 with
    | some ⟨(bounding, rest), h⟩ =>
      have hrest : rest.length < cs.length := Nat.lt_of_lt_of_le h hle
      match argumentList rest with
      | some ⟨(list, left), hl⟩ =>
        some ⟨(.bounded (bound cs).1 bounding list, left), Nat.lt_trans hl hrest⟩
      | none => none
    | none => none
termination_by 2 * cs.length + 1

end

/-! ### Method signatures -/

/-- Whether a bound of a type parameter begins here; a bound may also be empty. -/
def startsBound : List Char → Bool
  | 'L' :: _ | 'T' :: _ | '[' :: _ => true
  | _ => false

/-- Steps over the bounds of a type parameter, each behind a colon. -/
def skipBounds (cs : List Char) : Option { rest : List Char // rest.length ≤ cs.length } :=
  match cs with
  | ':' :: rest =>
    if startsBound rest then
      match type rest with
      | some ⟨(_, left), h⟩ =>
        have : left.length < rest.length := h
        match skipBounds left with
        | some ⟨more, hm⟩ => some ⟨more, by simp only [List.length_cons]; omega⟩
        | none => none
      | none => none
    else
      match skipBounds rest with
      | some ⟨more, hm⟩ => some ⟨more, Nat.le_succ_of_le hm⟩
      | none => none
  | cs => some ⟨cs, Nat.le_refl _⟩
termination_by cs.length

/-- What the name of a type parameter cannot contain. -/
def endsParameterName (c : Char) : Bool := c == ':' || c == '>'

/-- Steps over type parameters, up to the closing bracket. -/
def skipTypeParameters (cs : List Char) : Option (List Char) :=
  match cs with
  | '>' :: rest => some rest
  | cs =>
    if hname : upTo endsParameterName cs = [] then none
    else
      have hlt := length_since_lt hname
      if (since endsParameterName cs).head? = some ':' then
        match skipBounds (since endsParameterName cs) with
        | some ⟨rest, h⟩ =>
          have : rest.length < cs.length := Nat.lt_of_le_of_lt h hlt
          skipTypeParameters rest
        | none => none
      else none
termination_by cs.length

/-- Parameter types up to the closing parenthesis. -/
def parameters (cs : List Char) : Option (List JavaType × List Char) :=
  match cs with
  | [] => none
  | ')' :: rest => some ([], rest)
  | cs =>
    match type cs with
    | some ⟨(first, left), _⟩ =>
      match parameters left with
      | some (others, rest) => some (first :: others, rest)
      | none => none
    | none => none
termination_by cs.length

end Signature

/-- The types that a method takes and the one that it gives. -/
structure MethodType where
  parameters : List JavaType
  result : JavaType

/-- The types of a method as Java source writes them. -/
structure MethodTypes where
  parameters : List String
  result : String
  deriving DecidableEq, Repr

/-- A text that does not start with what a signature has to be. -/
structure SignatureError where
  text : String
  deriving DecidableEq, Repr

def SignatureError.message (e : SignatureError) : String := "malformed descriptor: " ++ e.text

def MethodType.render (m : MethodType) : MethodTypes :=
  ⟨m.parameters.map JavaType.render, m.result.render⟩

/-- The method type that the characters start with. Type parameters in front are stepped over. -/
def MethodType.parse? (cs : List Char) : Option MethodType := do
  let declared ← match cs with
    | '<' :: rest => Signature.skipTypeParameters rest
    | cs => some cs
  match declared with
  | '(' :: rest =>
    let (parameters, left) ← Signature.parameters rest
    let ⟨(result, _), _⟩ ← Signature.type left
    some ⟨parameters, result⟩
  | _ => none

/-- The type that the characters start with. -/
def JavaType.parse? (cs : List Char) : Option JavaType :=
  (Signature.type cs).map fun step => step.1.1

def renderFieldType (text : String) : Except SignatureError String :=
  match JavaType.parse? text.toList with
  | some type => .ok type.render
  | none => .error ⟨text⟩

def renderMethodTypes (text : String) : Except SignatureError MethodTypes :=
  match MethodType.parse? text.toList with
  | some type => .ok type.render
  | none => .error ⟨text⟩

/-- The name of an annotation's type: `Ljavax/annotation/Nonnull;` is `javax.annotation.Nonnull`.
A text that starts with no type is only dotted. -/
def annotationName (descriptor : String) : String :=
  match renderFieldType descriptor with
  | .ok name => name
  | .error _ => binaryName descriptor

end ClassReport
