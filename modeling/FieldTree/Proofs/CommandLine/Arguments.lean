import FieldTree.Surroundings

/-! Options that are given by name and value, one after another, and what is relied on of a reader of arguments. -/

namespace FieldTree.CommandLine

/-- The arguments that give each option its value. -/
def givenAs (pairs : List (String × String)) : List String := pairs.flatMap fun (name, value) => [name, value]

/-- The options of the listing are read as they are declared. The last value of an option counts, and a value that is
not of the type of its option is misuse. -/
class LawfulCommandReader [CommandReader] : Prop where
  read_givenAs : ∀ pairs : List (String × String), (∀ pair ∈ pairs, pair.1 ∈ FieldsRequest.options) →
    (CommandReader.read ("fields" :: givenAs pairs)).mapError Output.exit =
      (FieldsRequest.ofValues? (lastValue? pairs) false).elim (.error 2) fun request => .ok (.fields request)

/-! What a lawful reader makes of options -/

section
variable [CommandReader] [LawfulCommandReader] {pairs : List (String × String)}

theorem read_of_some {request : FieldsRequest} (known : ∀ pair ∈ pairs, pair.1 ∈ FieldsRequest.options)
    (asked : FieldsRequest.ofValues? (lastValue? pairs) false = some request) :
    CommandReader.read ("fields" :: givenAs pairs) = .ok (.fields request) := by
  have read := LawfulCommandReader.read_givenAs pairs known
  rw [asked] at read
  cases told : CommandReader.read ("fields" :: givenAs pairs) with
  | ok command =>
    rw [told] at read
    exact congrArg _ (Except.ok.inj read)
  | error output =>
    rw [told] at read
    cases read

theorem read_of_none (known : ∀ pair ∈ pairs, pair.1 ∈ FieldsRequest.options)
    (asked : FieldsRequest.ofValues? (lastValue? pairs) false = none) :
    ∃ output, CommandReader.read ("fields" :: givenAs pairs) = .error output ∧ output.exit = 2 := by
  have read := LawfulCommandReader.read_givenAs pairs known
  rw [asked] at read
  cases told : CommandReader.read ("fields" :: givenAs pairs) with
  | ok command =>
    rw [told] at read
    cases read
  | error output =>
    rw [told] at read
    exact ⟨output, rfl, Except.error.inj read⟩

end

/-! The reader that there is -/

theorem Options.read?_givenAs {options : Options} {pairs : List (String × String)}
    (known : ∀ pair ∈ pairs, options.argument? pair.1 = some (.valued pair.1 none)) :
    options.read? (givenAs pairs) = some { values := pairs } := by
  induction pairs with
  | nil => rfl
  | cons pair rest ih =>
    obtain ⟨name, value⟩ := pair
    have here := known (name, value) List.mem_cons_self
    have later := ih fun pair among => known pair (List.mem_cons_of_mem _ among)
    simp only [givenAs, List.flatMap_cons, List.cons_append, List.nil_append] at later ⊢
    rw [Options.read?, here]
    simp [later]

namespace Command

variable {pairs : List (String × String)}

theorem ofArguments_fields (texts : List String) : ofArguments ("fields" :: texts) = ofFieldsArguments texts := by
  have operand : programOptions.argument? "fields" = some (.operand "fields") := rfl
  have read : programOptions.read? ("fields" :: texts) = some { operands := "fields" :: texts } := by
    rw [Options.read?, operand]
    rfl
  unfold ofArguments
  rw [read]
  rfl

theorem fieldsOptions_argument {name : String} (valued : name ∈ FieldsRequest.options) :
    fieldsOptions.argument? name = some (.valued name none) := by
  simp only [FieldsRequest.options, List.mem_cons, List.not_mem_nil, or_false] at valued
  rcases valued with rfl | rfl | rfl | rfl <;> rfl

theorem ofFieldsArguments_givenAs (valued : ∀ pair ∈ pairs, pair.1 ∈ FieldsRequest.options) :
    ofFieldsArguments (givenAs pairs) =
      (FieldsRequest.ofValues? (lastValue? pairs) false).elim (.error misused) fun request => .ok (.fields request) := by
  unfold ofFieldsArguments
  rw [Options.read?_givenAs fun pair among => fieldsOptions_argument (valued pair among)]
  change (orMisused (FieldsRequest.ofValues? (lastValue? pairs) false)).bind (fun request => .ok (fields request)) = _
  cases FieldsRequest.ofValues? (lastValue? pairs) false <;> rfl

end Command

instance : LawfulCommandReader where
  read_givenAs pairs valued := by
    change (Command.ofArguments ("fields" :: givenAs pairs)).mapError Output.exit = _
    rw [Command.ofArguments_fields, Command.ofFieldsArguments_givenAs valued]
    cases FieldsRequest.ofValues? (lastValue? pairs) false <;> rfl

end FieldTree.CommandLine
