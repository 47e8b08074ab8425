import FieldTree.Proofs.Number.Shortest
import FieldTree.Proofs.Resolution.Outcome
import FieldTree.Proofs.Resolution.Shape

/-! A limit of a number may be given as a number or as its text, with blanks around it: what comes of the node is the
same, provided that the text is read at all. -/

namespace FieldTree

variable {σ : Type}

/-- The limits of a number, told by their keywords. -/
def Bounds.of (limit : String → Number) : Bounds where
  maximum := limit "maximum"
  minimum := limit "minimum"
  exclusiveMaximum := limit "exclusiveMaximum"
  exclusiveMinimum := limit "exclusiveMinimum"
  multipleOf := limit "multipleOf"

namespace Node

def limitKeywords : List String := ["maximum", "minimum", "exclusiveMaximum", "exclusiveMinimum", "multipleOf"]

section
variable {node : Members} {keyword other : String} {value : Json} {field : Option String}

theorem given?_insert (different : keyword ≠ other) :
    Members.given? (node.insert keyword value) other = node.given? other := by
  simp only [Members.given?, Entries.get?_insert, different, ite_false]

theorem given?_insert_self (given : value ≠ .null) : Members.given? (node.insert keyword value) keyword = some value := by
  cases value <;> first | exact absurd rfl given | simp [Members.given?]

theorem type?_insert (different : keyword ≠ "type") : type? (node.insert keyword value) = type? node := by
  simp only [type?, typeName?, given?_insert different]

theorem isReference_insert (different : keyword ≠ "$ref") : isReference (node.insert keyword value) = isReference node := by
  simp only [isReference, Members.gives, given?_insert different]

/-- A limit is read from its own keyword. -/
theorem numberLimit_insert (different : keyword ≠ other) :
    numberLimit (node.insert keyword value) other field = numberLimit node other field := by
  simp only [numberLimit, given?_insert different]

theorem numberLimit_insert_number (number : Number) :
    numberLimit (node.insert keyword (.number number)) keyword field = .ok number := by
  simp only [numberLimit, given?_insert_self (by simp : Json.number number ≠ .null)]

/-- The text of a number, with blanks around it, is read as the number or refused. -/
theorem numberLimit_insert_text (number : Number) {left right : String} (before : ∀ c ∈ left.toList, Text.isBlank c = true)
    (after : ∀ c ∈ right.toList, Text.isBlank c = true) :
    numberLimit (node.insert keyword (.string (left ++ number.text ++ right))) keyword field =
      if number.Legible then .ok number
      else .error (.notNumeric keyword field (.string (left ++ number.text ++ right))) := by
  have read : Literal.number? (left ++ number.text ++ right) = if number.Legible then some number else none := by
    rw [Literal.number?_append before (fun c => Number.isBlank_of_mem_text) after, Literal.number?_text]
  simp only [numberLimit, given?_insert_self (by simp : Json.string (left ++ number.text ++ right) ≠ .null), Json.text, read]
  by_cases legible : number.Legible
  · simp only [if_pos legible]
  · simp only [if_neg legible]

variable {limit : String → Number}

theorem numberField_of_read (read : ∀ keyword ∈ limitKeywords, numberLimit node keyword field = .ok (limit keyword)) :
    numberField field node = .ok (.scalar field none (.number (Bounds.of limit))) := by
  simp only [limitKeywords, List.forall_mem_cons] at read
  obtain ⟨maximum, minimum, exclusiveMaximum, exclusiveMinimum, multipleOf, _⟩ := read
  simp only [numberField, maximum, minimum, exclusiveMaximum, exclusiveMinimum, multipleOf]
  rfl

/-- One limit that cannot be read makes the node wrong. -/
theorem numberField_of_unread (among : keyword ∈ limitKeywords) {error : SemanticError}
    (unread : numberLimit node keyword field = .error error)
    (others : ∀ other ∈ limitKeywords, other ≠ keyword → numberLimit node other field = .ok (limit other)) :
    numberField field node = .error error := by
  simp only [limitKeywords, List.forall_mem_cons] at others
  simp only [limitKeywords, List.mem_cons, List.not_mem_nil, or_false] at among
  obtain ⟨maximum, minimum, exclusiveMaximum, exclusiveMinimum, multipleOf, _⟩ := others
  rcases among with rfl | rfl | rfl | rfl | rfl
  all_goals
    simp (disch := decide) only [numberField, maximum, minimum, exclusiveMaximum, exclusiveMinimum, unread]
    rfl

end
end Node

namespace Walker
open Resolve Node

section
variable {context : Context σ} {bound : Nat} {side : Side} {site : Site} {node : Members} {state : State σ}

/-- A number is told by its node alone. -/
theorem shape_of_number (number : type? node = some .number) (direct : side = .property → isReference node = false) :
    Shape.ofNode side.manner site (.object node) = Shape.ofResult (numberField site.name node) := by
  have typed := hasType_of_type? number
  cases side with
  | definition => simp only [Side.manner, Shape.ofNode, typed, ite_true, Shape.ofTyped, number, Shape.ofType]
  | property =>
    simp only [Side.manner, Shape.ofNode, direct rfl, typed, Bool.false_eq_true, ite_false, ite_true, Shape.ofTyped, number,
      Shape.ofType]

theorem outcome_of_number (number : type? node = some .number) (direct : side = .property → isReference node = false) :
    ((walker context (bound + 1)).child side site (.object node)).outcome state =
      (((numberField site.name node).map some).mapError fun error => .document (.semantic error), state) := by
  cases side with
  | definition =>
    have shape : Shape.ofNode .definition site (.object node) = Shape.ofResult (numberField site.name node) :=
      shape_of_number number direct
    rw [child, definition_succ, shape]
    cases numberField site.name node <;> rfl
  | property =>
    have shape : Shape.ofNode .property site (.object node) = Shape.ofResult (numberField site.name node) :=
      shape_of_number number direct
    rw [child, property_succ, shape]
    cases numberField site.name node <;> rfl

end

/-- A limit is given as a number, or as the text of the number with blanks around it. Both make the same field, with the
number as it was given, an integer or not, unless the text is not read; then the node is wrong for this limit. -/
theorem outcome_limit_text (context : Context σ) (bound : Nat) (side : Side) (site : Site) (state : State σ)
    {node : Members} (number : type? node = some .number) (direct : side = .property → isReference node = false)
    {keyword : String} (among : keyword ∈ limitKeywords) {limit : String → Number}
    (others : ∀ other ∈ limitKeywords, other ≠ keyword → numberLimit node other site.name = .ok (limit other))
    (value : Number) {left right : String} (before : ∀ c ∈ left.toList, Text.isBlank c = true)
    (after : ∀ c ∈ right.toList, Text.isBlank c = true) :
    let made : Field :=
      .scalar site.name none (.number (Bounds.of fun other => if other = keyword then value else limit other))
    let resolve given := ((walker context (bound + 1)).child side site (.object (node.insert keyword given))).outcome state
    let text : Json := .string (left ++ value.text ++ right)
    resolve (.number value) = (.ok (some made), state) ∧
    (value.Legible → resolve text = (.ok (some made), state)) ∧
    (¬value.Legible → resolve text = (.error (.document (.semantic (.notNumeric keyword site.name text))), state)) := by
  intro made resolve text
  have apart : keyword ≠ "type" ∧ keyword ≠ "$ref" :=
    ⟨by rintro rfl; exact absurd among (by decide), by rintro rfl; exact absurd among (by decide)⟩
  have told : ∀ given, resolve given = (((numberField site.name (node.insert keyword given)).map some).mapError
      fun error => .document (.semantic error), state) := fun given =>
    outcome_of_number ((type?_insert apart.1).trans number) fun property =>
      (isReference_insert apart.2).trans (direct property)
  have kept : ∀ given, ∀ other ∈ limitKeywords, other ≠ keyword →
      numberLimit (node.insert keyword given) other site.name = .ok (limit other) := fun given other among different =>
    (numberLimit_insert (Ne.symm different)).trans (others other among different)
  have resolves : ∀ given, numberLimit (node.insert keyword given) keyword site.name = .ok value →
      resolve given = (.ok (some made), state) := by
    intro given read
    have field : numberField site.name (node.insert keyword given) = .ok made := by
      refine numberField_of_read fun other among => ?_
      by_cases same : other = keyword
      · rw [if_pos same, same, read]
      · rw [if_neg same, kept given other among same]
    rw [told, field]
    rfl
  have read := @numberLimit_insert_text node keyword site.name value left right before after
  refine ⟨resolves _ (numberLimit_insert_number value), fun legible => ?_, fun illegible => ?_⟩
  · exact resolves text (read.trans (if_pos legible))
  · rw [told, numberField_of_unread among (read.trans (if_neg illegible)) (kept text)]
    rfl

/-- A number with a lower limit. -/
def bounded : Members := [("type", .string "number"), ("minimum", .number (.int 5))]

def twoAndHalf : Number := .float (Double.ofDecimal false 25 (-1))

theorem outcome_limit_text_bounded :
    twoAndHalf.text = "2.5" ∧ twoAndHalf.Legible ∧ ∀ given ∈ [Json.number twoAndHalf, .string " 2.5\t"],
      ((walker ⟨[], Selector.first⟩ 1).child .property (.named (some "step"))
        (.object (bounded.insert "multipleOf" given))).outcome ⟨[], [], (), []⟩ =
          (.ok (some (.scalar (some "step") none
            (.number { minimum := .int 5, multipleOf := twoAndHalf }))), ⟨[], [], (), []⟩) := by
  have text : twoAndHalf.text = "2.5" := by decide +kernel
  have legible : twoAndHalf.Legible := by decide +kernel
  have number : type? bounded = some .number := rfl
  have before : ∀ c ∈ " ".toList, Text.isBlank c = true := List.all_eq_true.mp rfl
  have after : ∀ c ∈ "\t".toList, Text.isBlank c = true := List.all_eq_true.mp rfl
  have others : ∀ other ∈ limitKeywords, other ≠ "multipleOf" →
      numberLimit bounded other (some "step") = .ok (if other = "minimum" then .int 5 else .zero) := by
    simp only [limitKeywords, List.forall_mem_cons]
    exact ⟨fun _ => rfl, fun _ => rfl, fun _ => rfl, fun _ => rfl, fun same => absurd rfl same, by simp⟩
  obtain ⟨plain, spelled, _⟩ := outcome_limit_text ⟨[], Selector.first⟩ 0 .property (.named (some "step")) ⟨[], [], (), []⟩
    number (fun _ => rfl) (by decide) others twoAndHalf before after
  rw [text] at spelled
  exact ⟨text, legible, List.forall_mem_cons.mpr ⟨plain, List.forall_mem_singleton.mpr (spelled legible)⟩⟩

/-- From this power of ten upwards one digit alone is written without a point. -/
def tenQuadrillion : Number := .float (Double.ofDecimal false 1 16)

/-- Its text makes the node wrong. -/
theorem illegible_tenQuadrillion : tenQuadrillion.text = "1e+16" ∧
    ((walker ⟨[], Selector.first⟩ 1).child .property (.named (some "n"))
      (.object [("type", .string "number"), ("maximum", .number tenQuadrillion)])).outcome ⟨[], [], (), []⟩ =
        (.ok (some (.scalar (some "n") none (.number { maximum := tenQuadrillion }))), ⟨[], [], (), []⟩) ∧
    ((walker ⟨[], Selector.first⟩ 1).child .property (.named (some "n"))
      (.object [("type", .string "number"), ("maximum", .string tenQuadrillion.text)])).outcome ⟨[], [], (), []⟩ =
        (.error (.document (.semantic (.notNumeric "maximum" (some "n") (.string "1e+16")))), ⟨[], [], (), []⟩) := by
  have text : tenQuadrillion.text = "1e+16" := by decide +kernel
  rw [text]
  exact ⟨rfl, rfl, rfl⟩

end Walker
end FieldTree
