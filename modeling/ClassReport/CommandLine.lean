import ClassReport.Text.Segment

/-!
# The command line

Arguments are read from left to right into items: paths, flags, and options with their values. The
first argument that breaks a rule, or that asks for help, ends the reading. What the command line
says is a view of the items: the values of each option in their order.
-/

namespace ClassReport

/-- The options that take a value. -/
inductive ValueOption where
  | package
  | methodsCsv
  | fieldsCsv
  | constructorsCsv
  | format
  | charset
  deriving DecidableEq, Repr

/-- The options that stand alone. -/
inductive FlagOption where
  | verbose
  | quiet
  deriving DecidableEq, Repr

/-- What a long option is. -/
inductive LongOption where
  | value (option : ValueOption)
  | flag (option : FlagOption)
  | help
  deriving DecidableEq, Repr

def LongOption.ofName? (name : String) : Option LongOption :=
  match name with
  | "package" => some (.value .package)
  | "methods-csv" => some (.value .methodsCsv)
  | "fields-csv" => some (.value .fieldsCsv)
  | "constructors-csv" => some (.value .constructorsCsv)
  | "format" => some (.value .format)
  | "charset" => some (.value .charset)
  | "verbose" => some (.flag .verbose)
  | "quiet" => some (.flag .quiet)
  | "help" => some .help
  | _ => none

/-- A part of a command line. -/
inductive CommandItem where
  | path (text : String)
  | flag (option : FlagOption)
  | value (option : ValueOption) (text : String)
  deriving DecidableEq, Repr

/-- What is wrong with a command line. -/
inductive UsageError where
  | unknownArgument
  | missingValue
  | unexpectedValue
  deriving DecidableEq, Repr

/-- Why the reading of a command line ended early. -/
inductive CommandStop where
  | usage (error : UsageError)
  | help
  deriving DecidableEq, Repr

/-- What an argument looks like. -/
inductive ArgumentShape where
  | separator
  /-- A word, or a lone `-`. -/
  | plain
  /-- The argument `--name`, perhaps with `=value`. -/
  | long (name : String) (value : Option String)
  /-- Another word that starts with `-`; `help` if the next letter is `h`. -/
  | short (isHelp : Bool)
  deriving DecidableEq, Repr

/-- Splits what stands behind `--` at the first equals sign. -/
def splitLong (text : List Char) : String × Option String :=
  let name := text.takeWhile (· != '=')
  match text.dropWhile (· != '=') with
  | [] => (String.ofList name, none)
  | _ :: value => (String.ofList name, some (String.ofList value))

def ArgumentShape.of (argument : String) : ArgumentShape :=
  match argument.toList with
  | ['-', '-'] => .separator
  | '-' :: '-' :: text => .long (splitLong text).1 (splitLong text).2
  | '-' :: letter :: _ => .short (letter == 'h')
  | _ => .plain

/-- What is wrong with the next argument where an option waits for its value, if it cannot be one. -/
def ArgumentShape.valueError? : ArgumentShape → Option UsageError
  | .plain => none
  | .separator => some .missingValue
  | .long name value =>
    match LongOption.ofName? name, value with
    | none, _ => some .unknownArgument
    | some (.value _), _ | some _, none => some .missingValue
    | some _, some _ => some .unexpectedValue
  | .short isHelp => some (if isHelp then .missingValue else .unknownArgument)

def commandItems : List String → Except CommandStop (List CommandItem)
  | [] => .ok []
  | argument :: rest =>
    match ArgumentShape.of argument with
    | .plain => (commandItems rest).map (.path argument :: ·)
    | .separator => .ok (rest.map .path)
    | .short isHelp => .error (if isHelp then .help else .usage .unknownArgument)
    | .long name value =>
      match LongOption.ofName? name, value with
      | none, _ => .error (.usage .unknownArgument)
      | some (.flag option), none => (commandItems rest).map (.flag option :: ·)
      | some .help, none => .error .help
      | some (.flag _), some _ | some .help, some _ => .error (.usage .unexpectedValue)
      | some (.value option), some text => (commandItems rest).map (.value option text :: ·)
      | some (.value option), none =>
        match rest with
        | [] => .error (.usage .missingValue)
        | next :: others =>
          match (ArgumentShape.of next).valueError? with
          | some e => .error (.usage e)
          | none => (commandItems others).map (.value option next :: ·)

/-- What a command line says. -/
structure CommandLine where
  items : List CommandItem
  deriving DecidableEq, Repr

namespace CommandLine

/-- Reads the arguments behind the program's name. -/
def parse (arguments : List String) : Except CommandStop CommandLine :=
  (commandItems arguments).map CommandLine.mk

def path? : CommandItem → Option String
  | .path text => some text
  | _ => none

/-- The value of an item, if it is one of that option. -/
def value? (option : ValueOption) : CommandItem → Option String
  | .value other text => if other = option then some text else none
  | _ => none

def paths (line : CommandLine) : List String := line.items.filterMap path?

def values (line : CommandLine) (option : ValueOption) : List String :=
  line.items.filterMap (value? option)

def firstValue? (line : CommandLine) (option : ValueOption) : Option String :=
  (line.values option).head?

/-- The number of times that a flag can count. -/
def maxCount : Nat := 255

/-- How often a flag is given; from the greatest number on it counts no further. -/
def count (line : CommandLine) (option : FlagOption) : Nat :=
  min maxCount (line.items.count (.flag option))

def has (line : CommandLine) (option : FlagOption) : Bool := line.count option > 0

end CommandLine

end ClassReport
