import FieldTree.CommandLine.Arguments
import FieldTree.CommandLine.Run
import FieldTree.Text.Alphanumeric
import FieldTree.Yaml.Reader
/-! What the program finds around it: a reader of YAML, a reader of arguments, and room on the stack. -/

namespace FieldTree

instance : YamlReader := ⟨Yaml.read⟩

/-- More than any schema needs that was not made to use it up. -/
def Room.usual : Room := ⟨240, 900⟩

namespace CommandLine

/-- The loading of a configuration is one call further in. -/
def Rooms.usual : Rooms := ⟨⟨Room.usual.nodes - 1, Room.usual.fields - 1⟩, .usual⟩

namespace Command

/-- Help and the version are told at once. The texts are those of the reader, and left out. -/
def told : Output := ⟨0, "", ""⟩

/-- Arguments that are not understood. What is said of them is left out. -/
def misused : Output := ⟨2, "", ""⟩

def versionFlag : String := "--version"

def programOptions : Options := ⟨[], [versionFlag], false⟩

def fieldsOptions : Options := ⟨FieldsRequest.options, ["--verbose"], true⟩

def generateOptions : Options := ⟨["--output"], [], true⟩

def orMisused {α : Type} : Option α → Except Output α
  | some value => .ok value
  | none => .error misused

/-- A command that takes no operands. -/
def withoutOperands (arguments : Arguments) (command : Command) : Except Output Command :=
  if arguments.operands.isEmpty then .ok command else .error misused

/-- Help comes before values are looked at, but not before all options are known. -/
def ofFieldsArguments (texts : List String) : Except Output Command := do
  let arguments ← orMisused (fieldsOptions.read? texts)
  if arguments.has helpFlag then throw told
  let request ← orMisused (FieldsRequest.ofValues? (lastValue? arguments.values) (arguments.has "--verbose"))
  withoutOperands arguments (.fields request)

def ofGenerateArguments (texts : List String) : Except Output Command := do
  let arguments ← orMisused (generateOptions.read? texts)
  if arguments.has helpFlag then throw told
  withoutOperands arguments (.generate ((lastValue? arguments.values "--output").getD Template.defaultFileName))

/-- A name that begins like an option, with neither a letter nor a number, asks for help. -/
def asksForHelp (name : String) : Bool := name.toList.head?.any (!Text.isAlphanumeric ·)

/-- Without any arguments the program tells how it is used. -/
def ofArguments (texts : List String) : Except Output Command := do
  if texts.isEmpty then throw told
  let arguments ← orMisused (programOptions.read? texts)
  if !arguments.flags.isEmpty then throw told
  match arguments.operands with
  | "fields" :: rest => ofFieldsArguments rest
  | "generate-config" :: rest => ofGenerateArguments rest
  | name :: _ => throw (if asksForHelp name then told else misused)
  | [] => throw misused

end Command

instance : CommandReader := ⟨Command.ofArguments⟩

end CommandLine
end FieldTree
