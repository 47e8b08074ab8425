import FieldTree.Proofs.Number.Shortest
import FieldTree.Proofs.Resolution.EveryProperty

/-! The lower limit of an array is read twice: as a text, for whether there must be an element, and as an integer. The
readings agree, except where the limit is a zero that is not written as one digit. -/

namespace FieldTree

variable {σ : Type}

theorem Number.isZero_of_toInt? {number : Number} (zero : number.toInt? = some 0) : number.isZero = true := by
  cases number with
  | int value => exact beq_iff_eq.mpr (Option.some.inj zero)
  | float value => exact Double.isZero_of_toInt? zero

/-- A zero that is not written as one digit: one of double precision has a point, and a text may have a sign, further
zeros, a point, or the digit of another script. -/
def Json.SpellsZero : Json → Prop
  | .number (.float value) => value.isZero = true
  | .string text => Text.strip text ≠ "0" ∧ ∃ number, Literal.number? text = some number ∧ number.isZero = true
  | _ => False

namespace Node
open Text

theorem strip_of_forall {text : String} (plain : ∀ c ∈ text.toList, isBlank c = false) : strip text = text := by
  rw [strip, trim, trimBy_of_forall plain, String.ofList_toList]

theorem number?_of_strip {text : String} (zero : strip text = "0") : Literal.number? text = some .zero := by
  have chars : trim text.toList = ['0'] := by
    have same := congrArg String.toList zero
    rwa [strip, String.toList_ofList] at same
  rw [Literal.number?, chars]
  rfl

theorem strip_ne_of_number? {text : String} {number : Number} (read : Literal.number? text = some number) :
    strip text ≠ "" := by
  intro empty
  have chars : trim text.toList = [] := by
    have same := congrArg String.toList empty
    rwa [strip, String.toList_ofList] at same
  rw [Literal.number?, chars] at read
  cases read

/-- A limit that is read is not given, or it is a number or the text of one. -/
theorem numberLimit_inversion {node : Members} {keyword : String} {field : Option String} {number : Number}
    (read : numberLimit node keyword field = .ok number) :
    (node.given? keyword = none ∧ number = .zero) ∨ node.given? keyword = some (.number number) ∨
      ∃ text, node.given? keyword = some (.string text) ∧ Literal.number? text = some number := by
  have empty : Literal.number? "" = none := rfl
  cases given : node.given? keyword with
  | none =>
    simp only [numberLimit, given] at read
    cases read
    exact .inl ⟨rfl, rfl⟩
  | some value =>
    cases value with
    | number number =>
      simp only [numberLimit, given] at read
      cases read
      exact .inr (.inl rfl)
    | string text =>
      simp only [numberLimit, given, Json.text] at read
      cases told : Literal.number? text with
      | none =>
        rw [told] at read
        cases read
      | some number =>
        rw [told] at read
        cases read
        exact .inr (.inr ⟨text, rfl, told⟩)
    | _ =>
      simp only [numberLimit, given, Json.text, empty] at read
      cases read

theorem countLimit_inversion {node : Members} {keyword : String} {field : Option String} {count : Int}
    (read : countLimit node keyword field = .ok count) :
    ∃ number, numberLimit node keyword field = .ok number ∧ number.toInt? = some count := by
  unfold countLimit at read
  split at read
  next => cases read
  next =>
    obtain ⟨number, limit, read⟩ := bind_ok read
    split at read
    next told =>
      cases read
      exact ⟨number, limit, told⟩
    next => cases read

/-- What the text of the limit says, compared with the integer that the limit is. -/
theorem elementRequired_iff {node : Members} {field : Option String} {count : Int}
    (read : countLimit node "minItems" field = .ok count) :
    elementRequired node = true ↔ count ≠ 0 ∨ ∃ value, node.given? "minItems" = some value ∧ value.SpellsZero := by
  have nonzero_of : ∀ {number : Number}, number.toInt? = some count → ¬number.isZero = true → count ≠ 0 := by
    rintro number told nonzero rfl
    exact nonzero (Number.isZero_of_toInt? told)
  obtain ⟨number, limit, told⟩ := countLimit_inversion read
  rcases numberLimit_inversion limit with ⟨given, rfl⟩ | given | ⟨text, given, spelled⟩
  · obtain rfl : 0 = count := Option.some.inj told
    simp [elementRequired, given, Json.textOf, strip, trim, trimBy]
  · have plain : strip number.text = number.text := strip_of_forall fun c => Number.isBlank_of_mem_text
    simp only [elementRequired, given, Json.textOf, Option.map_some, Option.getD_some, Json.text, plain, Option.some.injEq,
      exists_eq_left', Bool.and_eq_true, decide_eq_true_eq]
    cases number with
    | int value =>
      obtain rfl : value = count := Option.some.inj told
      have digit : Number.text (.int value) = "0" ↔ value = 0 := Literal.toString_eq_zero_iff
      have some_text : Number.text (.int value) ≠ "" := Literal.toString_ne_empty value
      simp [digit, some_text, Json.SpellsZero]
    | float value =>
      have pointed : Number.text (.float value) ≠ "" ∧ Number.text (.float value) ≠ "0" := value.text_ne
      refine ⟨fun _ => ?_, fun _ => pointed⟩
      by_cases zero : value.isZero = true
      · exact .inr zero
      · exact .inl (nonzero_of told zero)
  · have some_text := strip_ne_of_number? spelled
    simp only [elementRequired, given, Json.textOf, Option.map_some, Option.getD_some, Json.text, Option.some.injEq,
      exists_eq_left', Bool.and_eq_true, decide_eq_true_eq]
    constructor
    · rintro ⟨_, other⟩
      by_cases zero : number.isZero = true
      · exact .inr ⟨other, number, spelled, zero⟩
      · exact .inl (nonzero_of told zero)
    · rintro (nonzero | ⟨other, _⟩)
      · refine ⟨some_text, fun digit => nonzero ?_⟩
        rw [number?_of_strip digit] at spelled
        cases spelled
        cases told
        rfl
      · exact ⟨some_text, other⟩

end Node

section
open Node Resolve
variable {context : Context σ} {bound : Nat} {site : Site} {node items properties : Members} {before after : State σ}
  {field : Field}

theorem Shape.ofNode_array {manner : Manner} (side : manner.side = .property) (array : type? node = some .array)
    (direct : isReference node = false) (given : node.given? "items" = some (.object items)) :
    ofNode manner site (.object node) = .group (element site node items) (.array site node) := by
  have typed := hasType_of_type? array
  cases manner with
  | definition => cases side
  | property =>
    simp only [ofNode, direct, typed, Bool.false_eq_true, ite_false, ite_true, ofTyped, array, ofType, given]
  | typed => simp only [ofNode, ofTyped, array, ofType, given]

/-- An array of objects on the side of the properties, with what its lower limit says about the element. -/
theorem Yields.of_array {manner : Manner} (side : manner.side = .property) (array : type? node = some .array)
    (direct : isReference node = false) (given : node.given? "items" = some (.object items))
    (lists : Lists items properties) (yields : Yields context (.node manner site (.object node)) before [field] after) :
    ∃ children requiredNames minItems,
      field = .array site.name (some (requiredCollection site.inObject site.required))
        (.object none (some (elementRequired node)) children requiredNames) (.int minItems) (flag node "uniqueItems") ∧
      countLimit node "minItems" site.name = .ok minItems := by
  obtain ⟨each, made, inside, makes, same, _⟩ := yields.walked (Shape.ofNode_array side array direct given)
  rw [side] at inside
  cases inside with
  | allCons here later =>
    cases later
    obtain ⟨element, rfl⟩ := here.single rfl
    obtain ⟨children, requiredNames, rfl, _⟩ := here.of_lists lists
    simp only [Making.make, List.cons_append, arrayField] at makes
    cases read : countLimit node "minItems" site.name with
    | error error =>
      rw [read] at makes
      cases makes
    | ok minItems =>
      rw [read] at makes
      cases makes
      cases same
      exact ⟨children, requiredNames, minItems, rfl, rfl⟩

/-- An array of objects that list properties, as a property or as an alternative: its element is required unless the
lower limit is zero, and also if it is a zero that is not written as one digit. -/
theorem element_required_iff (array : type? node = some .array) (direct : isReference node = false)
    (given : node.given? "items" = some (.object items)) (object : type? items = some .object)
    (plain : isReference items = false) (single : combinator? items = none)
    (listed : items.given? "properties" = some (.object properties))
    (ends : ((walker context bound).property site (.object node)).Ends before field after ∨
      ((walker context bound).typed site node).Ends before field after) :
    ∃ children requiredNames minItems required,
      field = .array site.name (some (requiredCollection site.inObject site.required))
        (.object none (some required) children requiredNames) (.int minItems) (flag node "uniqueItems") ∧
      countLimit node "minItems" site.name = .ok minItems ∧
      (required = true ↔ minItems ≠ 0 ∨ ∃ value, node.given? "minItems" = some value ∧ value.SpellsZero) := by
  have lists : Lists items properties := ⟨plain, single, fun _ => object, listed⟩
  have made : ∃ manner : Manner, manner.side = .property ∧
      Yields context (.node manner site (.object node)) before [field] after := by
    rcases ends with ends | ends
    · exact ⟨.property, rfl, Walker.sound_walker context bound (ends_bind.mpr ⟨field, after, ends, ends_pure.mpr ⟨rfl, rfl⟩⟩)⟩
    · exact ⟨.typed, rfl, Walker.sound_walker context bound (Walker.ends_typed.mpr ⟨field, ends, rfl⟩)⟩
  obtain ⟨manner, side, yields⟩ := made
  obtain ⟨children, requiredNames, minItems, same, read⟩ := yields.of_array side array direct given lists
  exact ⟨children, requiredNames, minItems, _, same, read, elementRequired_iff read⟩

end

section
open Node

/-- A list of people with this lower limit. -/
def people (minItems : Json) : Members := [("type", .string "array"), ("minItems", minItems),
  ("items", .object [("type", .string "object"), ("properties", .object [
    ("name", .object [("type", .string "string")])])])]

/-- A person with a name, as the element of an array. -/
def person (required : Bool) : Field :=
  .object none (some required) [.scalar (some "name") none (.string none .zero .zero none)] []

theorem element_required_iff_people :
    (((walker ⟨[], Selector.first⟩ 4).property (.named (some "people")) (.object (people (.string " 02 ")))).Ends
      ⟨[], [], (), []⟩ (.array (some "people") (some false) (person true) (.int 2) false) ⟨[], [], (), []⟩) ∧
    ((2 : Int) ≠ 0 ∨ ∃ value, Members.given? (people (.string " 02 ")) "minItems" = some value ∧ value.SpellsZero) := by
  have ends : ((walker ⟨[], Selector.first⟩ 4).property (.named (some "people")) (.object (people (.string " 02 ")))).Ends
      ⟨[], [], (), []⟩ (.array (some "people") (some false) (person true) (.int 2) false) ⟨[], [], (), []⟩ := rfl
  obtain ⟨_, _, _, _, same, _, readings⟩ := element_required_iff rfl rfl rfl rfl rfl rfl rfl (.inl ends)
  cases same
  exact ⟨ends, readings.mp rfl⟩

/-- A zero that is written as two digits: the array may be empty, and still its element is required. -/
theorem person_required_of_zero :
    ((walker ⟨[], Selector.first⟩ 4).property (.named (some "people")) (.object (people (.string "00")))).Ends
      ⟨[], [], (), []⟩ (.array (some "people") (some false) (person true) (.int 0) false) ⟨[], [], (), []⟩ := rfl

end
end FieldTree
