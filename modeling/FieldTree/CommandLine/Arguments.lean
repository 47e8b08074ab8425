/-! Arguments of a program: options by name, with a value or alone, and operands. -/

namespace FieldTree.CommandLine

/-- The options that are understood. Asking for help is always understood. -/
structure Options where
  valued : List String
  flags : List String
  /-- Whether options may follow an operand. -/
  interspersed : Bool

def helpFlag : String := "--help"

/-- What one argument says. -/
inductive Argument
  | endOfOptions
  | operand (text : String)
  | flag (name : String)
  | valued (name : String) (value : Option String)
  deriving DecidableEq

/-- The name of an option, and the value that an equals sign ties to it. -/
def nameAndValue (chars : List Char) : String × Option String :=
  match chars.dropWhile (· ≠ '=') with
  | [] => (String.ofList chars, none)
  | _ :: value => (String.ofList (chars.takeWhile (· ≠ '=')), some (String.ofList value))

/-- The letter `h` asks for help, however often it is repeated. -/
def isShortHelp (letters : List Char) : Bool := letters.all (· = 'h')

/-- An option has to be known, and takes a value only if it is one with values. -/
def Options.argument? (options : Options) (text : String) : Option Argument :=
  match text.toList with
  | ['-', '-'] => some .endOfOptions
  | '-' :: second :: rest =>
    let (name, value) := nameAndValue text.toList
    if options.valued.contains name then some (.valued name value)
    else if (helpFlag :: options.flags).contains name then if value.isSome then none else some (.flag name)
    else if isShortHelp (second :: rest) then some (.flag helpFlag)
    else none
  | _ => some (.operand text)

/-- Arguments by what they say, each kind in the order in which it was given. -/
structure Arguments where
  values : List (String × String) := []
  flags : List String := []
  operands : List String := []
  deriving DecidableEq

/-- The last value that is given to an option. -/
def lastValue? (values : List (String × String)) (option : String) : Option String := values.reverse.lookup option

def Arguments.has (arguments : Arguments) (flag : String) : Bool := arguments.flags.contains flag

/-- Reads arguments from left to right. An option that takes a value takes the next argument, whatever that
looks like. -/
def Options.read? (options : Options) : List String → Option Arguments
  | [] => some {}
  | text :: rest => do
    match ← options.argument? text with
    | .endOfOptions => return { operands := rest }
    | .operand text =>
      if options.interspersed then
        let arguments ← options.read? rest
        return { arguments with operands := text :: arguments.operands }
      else return { operands := text :: rest }
    | .flag name =>
      let arguments ← options.read? rest
      return { arguments with flags := name :: arguments.flags }
    | .valued name (some value) =>
      let arguments ← options.read? rest
      return { arguments with values := (name, value) :: arguments.values }
    | .valued name none =>
      match rest with
      | [] => none
      | value :: rest =>
        let arguments ← options.read? rest
        return { arguments with values := (name, value) :: arguments.values }

end FieldTree.CommandLine
