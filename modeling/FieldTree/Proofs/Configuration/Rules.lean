import FieldTree.Configuration.Basic
import FieldTree.Proofs.Resolution.Node

/-! The rules for the sections of a configuration whose schema stands in it. Each section is read as its rules say. -/

namespace FieldTree

/-- Nothing is said, or null. -/
def Yaml.Silent (value : Option Yaml) : Prop := value = none ∨ value = some .null

namespace Configuration

/-- A definition of a schema gives its text, as it is or under a key. -/
inductive Defines : Yaml → String → Prop
  | text (text : String) : Defines (.string text) text
  | inline {entries : List (Yaml × Yaml)} {text : String} (inline : Yaml.get? entries "inline" = some (.string text)) :
    Defines (.mapping entries) text

/-- The schema has a section, in which it is defined and no other type is given. -/
inductive TellsSchema (root : List (Yaml × Yaml)) : String → Prop
  | intro {entries : List (Yaml × Yaml)} {definition : Yaml} {text : String}
    (present : Yaml.get? root "schema" = some (.mapping entries))
    (noAvro : isGiven (Yaml.get? entries "avsc") = false) (noProtobuf : isGiven (Yaml.get? entries "protobuf") = false)
    (defined : Yaml.get? entries "json_schema" = some definition) (defines : Defines definition text) :
    TellsSchema root text

/-- There is a seed only where an integer is given for it. -/
inductive TellsSeed (root : List (Yaml × Yaml)) : Option Int → Prop
  | absent (silent : Yaml.Silent (Yaml.get? root "resolution")) : TellsSeed root none
  | unset {entries : List (Yaml × Yaml)} (present : Yaml.get? root "resolution" = some (.mapping entries))
    (silent : Yaml.Silent (Yaml.get? entries "seed")) : TellsSeed root none
  | set {entries : List (Yaml × Yaml)} {seed : Int} (present : Yaml.get? root "resolution" = some (.mapping entries))
    (told : Yaml.get? entries "seed" = some (.number (.int seed))) : TellsSeed root (some seed)

/-- The format is that of a name, written in any case and with blanks around it. A format that is null is none. -/
inductive TellsFormat (root : List (Yaml × Yaml)) : ListFormat → Prop
  | absent (silent : Yaml.Silent (Yaml.get? root "output")) : TellsFormat root .text
  | unset {entries : List (Yaml × Yaml)} (present : Yaml.get? root "output" = some (.mapping entries))
    (silent : Yaml.get? entries "format" = none) : TellsFormat root .text
  | set {entries : List (Yaml × Yaml)} {text : String} {format : ListFormat}
    (present : Yaml.get? root "output" = some (.mapping entries))
    (told : Yaml.get? entries "format" = some (.string text)) (named : Text.lower (Text.strip text) = format.name) :
    TellsFormat root format

/-- The value describes the configuration, with a schema that stands in it and is not blank. -/
inductive Describes (path : Path) : Yaml → Configuration → Prop
  | mapping {root : List (Yaml × Yaml)} {text : String} {seed : Option Int} {format : ListFormat}
    (schema : TellsSchema root text) (something : Text.strip text ≠ "") (seeded : TellsSeed root seed)
    (formatted : TellsFormat root format) : Describes path (.mapping root) ⟨path, ⟨"json_schema", text, none⟩, seed, format⟩

/-- The definition of the schema, if it is a mapping, gives no path. -/
def Pathless (value : Yaml) : Prop :=
  ∀ root entries definition, value = .mapping root → Yaml.get? root "schema" = some (.mapping entries) →
    Yaml.get? entries "json_schema" = some (.mapping definition) → isGiven (Yaml.get? definition "path") = false

variable {root : List (Yaml × Yaml)} {value : Yaml}

/-! What is read of the root is what the rules say. -/

/-- What a section says, or what holds where it is silent. -/
theorem optionalSection_bind_eq_ok_iff {α : Type} {name : String} {given : Option Yaml} {default found : α}
    {read : List (Yaml × Yaml) → Except ConfigurationError α} :
    (do match ← optionalSection name given with
      | none => return default
      | some entries => read entries) = .ok found ↔
      (Yaml.Silent given ∧ default = found) ∨ ∃ entries, given = some (.mapping entries) ∧ read entries = .ok found := by
  rcases given with _ | given
  · simp [optionalSection, Yaml.Silent, bind, Except.bind, pure, Except.pure]
  · cases given <;> simp [optionalSection, sectionOf, Yaml.Silent, Except.map, bind, Except.bind, pure, Except.pure]

theorem seedOf_eq_ok_iff {seed : Option Int} : seedOf root = .ok seed ↔ TellsSeed root seed := by
  refine optionalSection_bind_eq_ok_iff.trans ⟨?_, fun tells => ?_⟩
  · rintro (⟨silent, rfl⟩ | ⟨entries, present, ok⟩)
    · exact .absent silent
    · split at ok
      next unset =>
        cases ok
        exact .unset present (.inl unset)
      next unset =>
        cases ok
        exact .unset present (.inr unset)
      next set =>
        cases ok
        exact .set present set
      next => cases ok
  · cases tells with
    | absent silent => exact .inl ⟨silent, rfl⟩
    | unset present silent => rcases silent with unset | unset <;> exact .inr ⟨_, present, by rw [unset]; rfl⟩
    | set present told => exact .inr ⟨_, present, by rw [told]; rfl⟩

theorem ofName?_eq_some_iff {name : String} {format : ListFormat} :
    ListFormat.ofName? name = some format ↔ name = format.name := by
  constructor
  · intro found
    have named := List.find?_some found
    exact (of_decide_eq_true named).symm
  · rintro rfl
    cases format <;> rfl

theorem formatOfText_eq_ok_iff {text : String} {format : ListFormat} :
    formatOfText text = .ok format ↔ Text.lower (Text.strip text) = format.name := by
  unfold formatOfText
  by_cases blank : Text.strip text = ""
  · have nameless : Text.lower "" ≠ format.name := by cases format <;> decide
    simp [blank, nameless]
  · simp only [blank, if_false]
    rw [← ofName?_eq_some_iff]
    cases ListFormat.ofName? (Text.lower (Text.strip text)) <;> simp

theorem formatOf_eq_ok_iff {format : ListFormat} : formatOf root = .ok format ↔ TellsFormat root format := by
  refine optionalSection_bind_eq_ok_iff.trans ⟨?_, fun tells => ?_⟩
  · rintro (⟨silent, rfl⟩ | ⟨entries, present, ok⟩)
    · exact .absent silent
    · split at ok
      next unset =>
        cases ok
        exact .unset present unset
      next set => exact .set present set (formatOfText_eq_ok_iff.mp ok)
      next => cases ok
  · cases tells with
    | absent silent => exact .inl ⟨silent, rfl⟩
    | unset present unset => exact .inr ⟨_, present, by rw [unset]; rfl⟩
    | set present told named => exact .inr ⟨_, present, by rw [told]; exact formatOfText_eq_ok_iff.mpr named⟩

theorem isGiven_text {text : String} : isGiven (some (.string text)) = true ↔ text ≠ "" := by
  simp [isGiven, Yaml.isTruthy]

theorem placeOfParts_eq_ok_iff {inline path : Option Yaml} (pathless : isGiven path = false) {place : SchemaPlace} :
    placeOfParts inline path = .ok place ↔ ∃ text, inline = some (.string text) ∧ text ≠ "" ∧ place = .inline text := by
  unfold placeOfParts
  simp only [pathless, Bool.and_false, Bool.false_eq_true, if_false]
  by_cases given : isGiven inline = true
  · rw [if_pos given]
    split
    next text =>
      have something := isGiven_text.mp given
      simp [something, eq_comm]
    next other => simpa using fun text same => absurd same (other text)
  · rw [if_neg given]
    simp only [reduceCtorEq, false_iff]
    rintro ⟨text, rfl, something, _⟩
    exact given (isGiven_text.mpr something)

/-- A definition that says anything is where it defines a text that says anything. -/
theorem placeOfDefinition_eq_ok_iff {definition : Yaml} {place : SchemaPlace}
    (pathless : ∀ entries, definition = .mapping entries → isGiven (Yaml.get? entries "path") = false) :
    isGiven (some definition) = true ∧ placeOfDefinition (some definition) = .ok place ↔
      ∃ text, Defines definition text ∧ text ≠ "" ∧ place = .inline text := by
  constructor
  · rintro ⟨given, placed⟩
    cases definition with
    | string text =>
      cases placed
      exact ⟨text, .text text, isGiven_text.mp given, rfl⟩
    | mapping entries =>
      obtain ⟨text, inline, something, rfl⟩ := (placeOfParts_eq_ok_iff (pathless entries rfl)).mp placed
      exact ⟨text, .inline inline, something, rfl⟩
    | _ => cases placed
  · rintro ⟨text, defines, something, rfl⟩
    cases defines with
    | text => exact ⟨isGiven_text.mpr something, rfl⟩
    | @inline entries _ inline =>
      refine ⟨?_, (placeOfParts_eq_ok_iff (pathless entries rfl)).mpr ⟨text, inline, something, rfl⟩⟩
      cases entries with
      | nil => cases inline
      | cons => rfl

theorem sectionOf_eq_ok_iff {name : String} {given : Option Yaml} {entries : List (Yaml × Yaml)} :
    sectionOf name given = .ok entries ↔ given = some (.mapping entries) := by
  rcases given with _ | given
  · simp [sectionOf]
  · cases given <;> simp [sectionOf]

theorem unsupported_eq_none_iff {entries : List (Yaml × Yaml)} :
    (unsupportedTypes.find? fun name => isGiven (Yaml.get? entries name)) = none ↔
      isGiven (Yaml.get? entries "avsc") = false ∧ isGiven (Yaml.get? entries "protobuf") = false := by
  simp [unsupportedTypes]

theorem Pathless.defined {entries : List (Yaml × Yaml)} {definition : Yaml} (pathless : Pathless (.mapping root))
    (present : Yaml.get? root "schema" = some (.mapping entries))
    (defined : Yaml.get? entries "json_schema" = some definition) :
    ∀ inside, definition = .mapping inside → isGiven (Yaml.get? inside "path") = false := by
  rintro inside rfl
  exact pathless root entries inside rfl present defined

theorem schemaPlace_eq_ok_iff (pathless : Pathless (.mapping root)) {place : SchemaPlace} :
    schemaPlace root = .ok place ↔ ∃ text, TellsSchema root text ∧ text ≠ "" ∧ place = .inline text := by
  unfold schemaPlace
  constructor
  · intro ok
    obtain ⟨entries, present, ok⟩ := bind_ok ok
    rw [sectionOf_eq_ok_iff] at present
    split at ok
    · cases ok
    next supported =>
      obtain ⟨noAvro, noProtobuf⟩ := unsupported_eq_none_iff.mp supported
      dsimp only at ok
      split at ok
      next given =>
        cases defined : Yaml.get? entries Listing.jsonSchemaType with
        | none => rw [defined] at given; cases given
        | some definition =>
          rw [defined] at given ok
          obtain ⟨text, defines, something, rfl⟩ :=
            (placeOfDefinition_eq_ok_iff (pathless.defined present defined)).mp ⟨given, ok⟩
          exact ⟨text, .intro present noAvro noProtobuf defined defines, something, rfl⟩
      next => cases ok
  · rintro ⟨text, ⟨present, noAvro, noProtobuf, defined, defines⟩, something, rfl⟩
    obtain ⟨given, placed⟩ :=
      (placeOfDefinition_eq_ok_iff (pathless.defined present defined)).mpr ⟨text, defines, something, rfl⟩
    rw [← defined] at given placed
    rw [sectionOf_eq_ok_iff.mpr present]
    simp only [bind, Except.bind, unsupported_eq_none_iff.mpr ⟨noAvro, noProtobuf⟩]
    exact (if_pos given).trans placed

theorem rootOf_eq_ok_iff : rootOf value = .ok root ↔ value = .mapping root ∨ value = .null ∧ root = [] := by
  cases value <;> simp [rootOf, eq_comm]

theorem schemaText_eq_ok_iff {text found : String} :
    schemaText text = .ok found ↔ Text.strip text ≠ "" ∧ found = text := by
  unfold schemaText
  by_cases blank : Text.strip text = ""
  · simp [blank]
  · simp [blank, eq_comm]

theorem Pathless.ofRoot (pathless : Pathless value) (rooted : rootOf value = .ok root) : Pathless (.mapping root) := by
  rcases rootOf_eq_ok_iff.mp rooted with rfl | ⟨_, rfl⟩
  · exact pathless
  · intro root entries definition same present
    cases same
    cases present

end Configuration
end FieldTree
