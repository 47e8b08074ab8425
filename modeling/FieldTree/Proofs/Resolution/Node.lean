import FieldTree.Proofs.Json.Parts
import FieldTree.Resolution.Constraint

/-! What a node says stays inside the node, and is wrong only for what the node says. -/

namespace FieldTree

/-- Two computations one after the other succeed only if each of them does. -/
theorem bind_ok {ε α β : Type} {first : Except ε α} {rest : α → Except ε β} {value : β}
    (ok : (first >>= rest) = .ok value) : ∃ middle, first = .ok middle ∧ rest middle = .ok value := by
  cases first with
  | ok middle => exact ⟨middle, rfl, ok⟩
  | error error => cases ok

/-- Whether a node gives rise to the error by what it says, whatever its depth and the definitions around it. -/
def SemanticError.ofNode : SemanticError → Bool
  | .mutualAlias .. => false
  | .unresolved _ => false
  | .tooDeep => false
  | _ => true

namespace Node

theorem mem_parts_of_members {node : Members} {key : String} {part : Json}
    (inside : part ∈ Json.partsOfMembers (Json.members (node.given? key))) : part ∈ Json.partsOfMembers node := by
  cases given : node.given? key with
  | none => simp [given, Json.members, Json.partsOfMembers] at inside
  | some value =>
    cases value with
    | object members =>
      exact Members.mem_parts_of_given?_object given (by simpa [given, Json.members, Json.members?] using inside)
    | _ => simp [given, Json.members, Json.members?, Json.partsOfMembers] at inside

theorem mem_of_allMembers? {items : List Json} {branches : List Members} (all : allMembers? items = some branches)
    {branch : Members} (member : branch ∈ branches) : .object branch ∈ items := by
  induction items generalizing branches with
  | nil =>
    cases all
    cases member
  | cons item rest ih =>
    cases item <;> simp only [allMembers?, reduceCtorEq, Option.map_eq_some_iff] at all
    obtain ⟨others, found, rfl⟩ := all
    rcases List.mem_cons.mp member with rfl | later
    · exact List.mem_cons_self
    · exact List.mem_cons_of_mem _ (ih found later)

theorem mem_parts_of_branches {node : Members} {combinator : Combinator} {field : Option String}
    {found : List Members} (listed : branches node combinator field = .ok found) {branch : Members}
    (member : branch ∈ found) : .object branch ∈ Json.partsOfMembers node := by
  unfold branches at listed
  split at listed
  next items given =>
    split at listed
    next others all =>
      cases listed
      refine Json.partsOfMembers_trans ?_ node (Members.mem_parts_of_given? given)
      exact List.mem_cons_of_mem _ (Json.mem_partsOfItems.mpr ⟨_, mem_of_allMembers? all member, Json.self_mem_parts _⟩)
    next => cases listed
  next => cases listed

/-- The entries of an object in a node, and the branches of a combination, are parts of the node. -/
theorem inherited_member {holds : Json → Prop} (inherited : Json.Inherited holds) {node : Members}
    (around : holds (.object node)) {key : String} {entry : String × Json}
    (among : entry ∈ Json.members (node.given? key)) : holds entry.2 :=
  inherited.inside around (mem_parts_of_members (Members.mem_parts_of_mem among))

theorem inherited_branch {holds : Json → Prop} (inherited : Json.Inherited holds) {node : Members}
    (around : holds (.object node)) {combinator : Combinator} {field : Option String} {found : List Members}
    (listed : branches node combinator field = .ok found) {branch : Members} (member : branch ∈ found) :
    holds (.object branch) :=
  inherited.inside around (mem_parts_of_branches listed member)

theorem gives_of_combinator? {node : Members} {combinator : Combinator} (found : combinator? node = some combinator) :
    node.gives combinator.keyword = true := by
  have given := List.find?_some found
  exact given

theorem hasType_of_type? {node : Members} {type : BaseType} (told : type? node = some type) : hasType node = true := by
  unfold hasType Members.gives
  cases given : node.given? "type" with
  | some => rfl
  | none => simp [type?, typeName?, given] at told

/-- If the result is an error, it is one that the node itself gives rise to. -/
def Told {α : Type} (result : Except SemanticError α) : Prop := ∀ error, result = .error error → error.ofNode = true

section
variable {α β : Type}

theorem Told.ok (value : α) : Told (.ok value) := fun _ impossible => by cases impossible

theorem Told.error {error : SemanticError} (own : error.ofNode = true) : Told (.error error : Except SemanticError α) := by
  intro other same
  cases same
  exact own

theorem Told.bind {first : Except SemanticError α} {rest : α → Except SemanticError β} (here : Told first)
    (later : ∀ value, Told (rest value)) : Told (first >>= rest) := by
  cases first with
  | ok value => exact later value
  | error error => exact .error (here error rfl)

theorem Told.map {result : Except SemanticError α} (told : Told result) (change : α → β) : Told (result.map change) := by
  cases result with
  | ok value => exact .ok (change value)
  | error error => exact .error (told error rfl)

end

theorem target_told (node : Members) : Told (target node) := by
  simp only [target]
  split
  · exact .ok _
  · exact .error rfl

theorem branches_told (node : Members) (combinator : Combinator) (field : Option String) :
    Told (branches node combinator field) := by
  unfold branches
  split
  · split
    · exact .ok _
    · exact .error rfl
  · exact .error rfl

theorem numberLimit_told (node : Members) (keyword : String) (field : Option String) :
    Told (numberLimit node keyword field) := by
  unfold numberLimit
  split
  · exact .ok _
  · exact .ok _
  · exact .error rfl
  · split
    · exact .ok _
    · exact .error rfl

theorem countLimit_told (node : Members) (keyword : String) (field : Option String) :
    Told (countLimit node keyword field) := by
  unfold countLimit
  split
  · exact .error rfl
  · apply (numberLimit_told node keyword field).bind
    intro number
    split
    · exact .ok _
    · exact .error rfl

theorem arrayField_told (field : Option String) (node : Members) (element : Field) (required : Bool) :
    Told (arrayField field node element required) :=
  (countLimit_told node "minItems" field).bind fun _ => .ok _

theorem numberField_told (field : Option String) (node : Members) : Told (numberField field node) := by
  unfold numberField
  iterate 5 refine (numberLimit_told node _ field).bind fun _ => ?_
  exact .ok _

theorem textField_told (field : Option String) (node : Members) : Told (textField field node) := by
  unfold textField
  split
  · simp only [enumField]
    split
    · exact .error rfl
    · exact .ok _
  · split
    · exact .ok _
    · iterate 2 refine (countLimit_told node _ field).bind fun _ => ?_
      exact .ok _

/-! The name of the field stands in errors only; apart from them, it is no more than the name of what comes out. -/

section
variable {node : Members} {field : Option String} (other : Option String)

theorem branches_of_ok {combinator : Combinator} {found : List Members}
    (ok : branches node combinator field = .ok found) :
    branches node combinator other = .ok found := by
  unfold branches at ok ⊢
  split at ok
  next items given =>
    split at ok
    · exact ok
    · cases ok
  next => cases ok

theorem numberLimit_of_ok {keyword : String} {value : Number} (ok : numberLimit node keyword field = .ok value) :
    numberLimit node keyword other = .ok value := by
  unfold numberLimit at ok ⊢
  split at ok
  · exact ok
  · exact ok
  · cases ok
  · split at ok
    · exact ok
    · cases ok

theorem countLimit_of_ok {keyword : String} {value : Int} (ok : countLimit node keyword field = .ok value) :
    countLimit node keyword other = .ok value := by
  unfold countLimit at ok ⊢
  split at ok
  next => cases ok
  next =>
    obtain ⟨number, limit, ok⟩ := bind_ok ok
    rw [numberLimit_of_ok other limit]
    split at ok
    next count whole =>
      simp only [whole, bind, Except.bind]
      exact ok
    next => cases ok

theorem arrayField_of_ok {element made : Field} {required : Bool}
    (ok : arrayField field node element required = .ok made) :
    ∃ minItems, made = .array field (some required) element minItems (flag node "uniqueItems") ∧
      ∀ element' required', arrayField other node element' required' =
        .ok (.array other (some required') element' minItems (flag node "uniqueItems")) := by
  obtain ⟨minItems, limit, ok⟩ := bind_ok ok
  cases ok
  refine ⟨.int minItems, rfl, fun element' required' => ?_⟩
  simp only [arrayField, countLimit_of_ok other limit]
  rfl

theorem numberField_of_ok {made : Field} (ok : numberField field node = .ok made) :
    numberField other node = .ok (made.rename other) := by
  obtain ⟨maximum, first, ok⟩ := bind_ok ok
  obtain ⟨minimum, second, ok⟩ := bind_ok ok
  obtain ⟨exclusiveMaximum, third, ok⟩ := bind_ok ok
  obtain ⟨exclusiveMinimum, fourth, ok⟩ := bind_ok ok
  obtain ⟨multipleOf, fifth, ok⟩ := bind_ok ok
  cases ok
  simp only [numberField, numberLimit_of_ok other first, numberLimit_of_ok other second, numberLimit_of_ok other third,
    numberLimit_of_ok other fourth, numberLimit_of_ok other fifth]
  rfl

theorem numberField_scalar {made : Field} (ok : numberField field node = .ok made) :
    ∃ type, made = .scalar field none type := by
  iterate 5 obtain ⟨_, _, ok⟩ := bind_ok ok
  cases ok
  exact ⟨_, rfl⟩

theorem textField_scalar {made : Field} (ok : textField field node = .ok made) :
    ∃ type, made = .scalar field none type := by
  unfold textField at ok
  split at ok
  · simp only [enumField] at ok
    split at ok
    · cases ok
    · cases ok
      exact ⟨_, rfl⟩
  · split at ok
    · cases ok
      unfold formatField
      split
      · exact ⟨_, rfl⟩
      · split <;> exact ⟨_, rfl⟩
    · iterate 2 obtain ⟨_, _, ok⟩ := bind_ok ok
      cases ok
      exact ⟨_, rfl⟩

theorem textField_of_ok {made : Field} (ok : textField field node = .ok made) :
    textField other node = .ok (made.rename other) := by
  unfold textField at ok ⊢
  split at ok
  · simp only [enumField] at ok ⊢
    split at ok
    · cases ok
    · cases ok
      rfl
  · split at ok
    · cases ok
      unfold formatField
      split
      · rfl
      · split <;> rfl
    · obtain ⟨minLength, first, ok⟩ := bind_ok ok
      obtain ⟨maxLength, second, ok⟩ := bind_ok ok
      cases ok
      simp only [countLimit_of_ok other first, countLimit_of_ok other second]
      rfl

end

end Node
end FieldTree
