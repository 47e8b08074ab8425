import FieldTree.Proofs.Resolution.Node
import FieldTree.Resolution.Walk

/-! What a node asks for, told before anything is resolved: a field that is known at once, a field made of what
stands inside the node, the target of a reference, or a branch of a combination. The steps of the walk do what
the shape of the node says, so a property of the walk needs one case for each shape. -/

namespace FieldTree

/-- A node inside another, and what is reported when nothing comes of it. -/
structure Inner where
  site : Site
  node : Json
  missing : Option Event

/-- What the fields from the inside are made into. Of an array or map nothing comes if it has no element. -/
inductive Making
  | array (site : Site) (node : Members)
  | object (name : Option String) (required : Option Bool) (requiredNames : List String)
  | map (site : Site)

inductive Shape
  | wrong (error : SemanticError)
  | leaf (field : Field)
  | group (inner : List Inner) (making : Making)
  | reference (site : Site) (node : Members)
  | combination (name : Option String) (node : Members) (combinator : Combinator)

/-- How the walk comes to a node: on one of the sides, or as a scalar branch, which must tell its type. -/
inductive Manner
  | definition
  | property
  | typed
  deriving DecidableEq

def Manner.side : Manner → Side
  | .definition => .definition
  | .property => .property
  | .typed => .property

def Side.manner : Side → Manner
  | .definition => .definition
  | .property => .property

/-- A required name is kept if there is a field of that name. -/
def Making.make : Making → List Field → Except SemanticError (Option Field)
  | .array site node, element :: _ =>
    (Node.arrayField site.name node element (requiredCollection site.inObject site.required)).map some
  | .array _ _, [] => .ok none
  | .object name required requiredNames, fields =>
    .ok (some (.object name required fields
      (requiredNames.filter fun name => (fields.map Field.name).contains (some name))))
  | .map site, value :: _ => .ok (some (.map site.name (some (requiredCollection site.inObject site.required)) value))
  | .map _, [] => .ok none

/-- Whether nothing comes of no fields. -/
def Making.needs : Making → Bool
  | .array .. => true
  | .object .. => false
  | .map _ => true

def Making.name : Making → Option String
  | .array site _ => site.name
  | .object name .. => name
  | .map site => site.name

theorem Making.make_none {making : Making} {fields : List Field} (makes : making.make fields = .ok none) :
    making.needs = true ∧ fields = [] := by
  cases making with
  | array site node =>
    cases fields with
    | nil => exact ⟨rfl, rfl⟩
    | cons element rest =>
      simp only [make] at makes
      cases field : Node.arrayField site.name node element (requiredCollection site.inObject site.required) <;>
        rw [field] at makes <;> cases makes
  | object => cases makes
  | map site =>
    cases fields with
    | nil => exact ⟨rfl, rfl⟩
    | cons => cases makes

theorem Making.make_told (making : Making) (fields : List Field) : Node.Told (making.make fields) := by
  cases making with
  | array site node =>
    cases fields with
    | nil => exact .ok _
    | cons element rest => exact (Node.arrayField_told _ _ _ _).map some
  | object => exact .ok _
  | map => cases fields <;> exact .ok _

/-- Whether an array is made depends neither on its place nor on its element. -/
theorem Making.make_array {site : Site} {node : Members} {element made : Field} {rest : List Field}
    (makes : (Making.array site node).make (element :: rest) = .ok (some made)) :
    ∃ minItems unique,
      made = .array site.name (some (requiredCollection site.inObject site.required)) element minItems unique ∧
      ∀ (site' : Site) (element' : Field) (rest' : List Field), (Making.array site' node).make (element' :: rest') =
        .ok (some (.array site'.name (some (requiredCollection site'.inObject site'.required)) element'
          minItems unique)) := by
  simp only [make] at makes ⊢
  cases ok : Node.arrayField site.name node element (requiredCollection site.inObject site.required) with
  | ok array =>
    rw [ok] at makes
    cases makes
    obtain ⟨minItems, same, _⟩ := Node.arrayField_of_ok none ok
    refine ⟨minItems, _, same, fun site' element' rest' => ?_⟩
    obtain ⟨minItems', same', again⟩ := Node.arrayField_of_ok site'.name ok
    rw [same] at same'
    cases same'
    rw [again]
    rfl
  | error error =>
    rw [ok] at makes
    cases makes

theorem Making.name_of_make {making : Making} {fields : List Field} {made : Field}
    (makes : making.make fields = .ok (some made)) : made.name = making.name := by
  cases making with
  | array site node =>
    cases fields with
    | nil => cases makes
    | cons element rest =>
      obtain ⟨_, _, rfl, _⟩ := make_array makes
      rfl
  | object name required requiredNames =>
    cases makes
    rfl
  | map site =>
    cases fields with
    | nil => cases makes
    | cons value rest =>
      cases makes
      rfl

namespace Shape
open Node

def ofResult : Except SemanticError Field → Shape
  | .ok field => .leaf field
  | .error error => .wrong error

def element (site : Site) (node items : Members) : List Inner :=
  [⟨⟨none, some (elementRequired node), none⟩, .object items, some (.droppedArray site.name)⟩]

def value (side : Side) (site : Site) (values : Members) : List Inner :=
  [⟨⟨some Field.mapValueName, if side = .definition then site.required else some false, none⟩, .object values,
    some (.droppedMap site.name)⟩]

def listed (name : Option String) (requiredNames : List String) (properties : Members) : List Inner :=
  properties.map fun (key, node) =>
    ⟨⟨some key, some (requiredNames.contains key), some true⟩, node, some (.droppedProperty key name)⟩

def unlisted (members : Members) : List Inner := members.map fun (key, node) => ⟨.named (some key), node, none⟩

def own (node : Members) : List Inner :=
  unlisted (node.filter fun (key, value) => !(keywords.contains key || !value.isObject))

def ofObject (side : Side) (site : Site) (node : Members) : Shape :=
  match combinator? node with
  | some combinator => .combination site.name node combinator
  | none =>
    match node.given? "properties", node.given? "additionalProperties" with
    | some (.object properties), _ =>
      .group (listed site.name (requiredNames node) properties) (.object site.name site.required (requiredNames node))
    | _, some (.object (member :: values)) => .group (value side site (member :: values)) (.map site)
    | _, _ => if isReference node then .reference site node else .group (own node) (.object site.name none [])

def ofType (side : Side) (site : Site) (node : Members) : BaseType → Shape
  | .integer => .leaf (.scalar site.name none .integer)
  | .number => ofResult (numberField site.name node)
  | .array =>
    match node.given? "items" with
    | some (.object items) => .group (element site node items) (.array site node)
    | _ => .wrong (.noItems site.name)
  | .object => ofObject side site node
  | .boolean => .leaf (.scalar site.name none .boolean)
  | .text => ofResult (textField site.name node)

def ofTyped (side : Side) (site : Site) (node : Members) : Shape :=
  match type? node with
  | some type => ofType side site node type
  | none => .wrong (.noType site.name)

/-- A definition tells its type first and may be an object without saying so. A property tells its reference
first and must show what it is. -/
def ofNode : Manner → Site → Json → Shape
  | .definition, site, .object node =>
    if hasType node then ofTyped .definition site node
    else if isReference node then .reference site node
    else
      match combinator? node with
      | some combinator => .combination site.name node combinator
      | none => ofObject .definition (.named site.name) node
  | .property, site, .object node =>
    if isReference node then .reference site node
    else if hasType node then ofTyped .property site node
    else
      match combinator? node with
      | some combinator => .combination site.name node combinator
      | none =>
        if Members.gives node "properties" then ofObject .property ⟨site.name, site.required, none⟩ node
        else .wrong (.unsupportedShape site.name)
  | .typed, site, .object node => ofTyped .property site node
  | _, site, _ => .wrong (.unsupportedShape site.name)

/-- The shapes that a node can have at a place. -/
inductive Form (side : Side) (site : Site) (node : Members) : Shape → Prop
  | wrong (error : SemanticError) (own : error.ofNode = true) : Form side site node (.wrong error)
  | leaf (type : Scalar) : Form side site node (.leaf (.scalar site.name none type))
  | array {items} (given : node.given? "items" = some (.object items)) :
    Form side site node (.group (element site node items) (.array site node))
  | listed {properties} (given : node.given? "properties" = some (.object properties)) :
    Form side site node (.group (listed site.name (requiredNames node) properties)
      (.object site.name site.required (requiredNames node)))
  | map {values} (given : node.given? "additionalProperties" = some (.object values)) :
    Form side site node (.group (value side site values) (.map site))
  | own : Form side site node (.group (own node) (.object site.name none []))
  | reference (reference : isReference node = true) : Form side site node (.reference site node)
  | combination {combinator : Combinator} (gives : node.gives combinator.keyword = true) :
    Form side site node (.combination site.name node combinator)

theorem Form.inside {side : Side} {site : Site} {node : Members} {inner : List Inner} {making : Making}
    (form : Form side site node (.group inner making)) : ∀ one ∈ inner, one.node ∈ Json.partsOfMembers node := by
  intro one among
  cases form with
  | array given =>
    rw [List.mem_singleton.mp among]
    exact Members.mem_parts_of_given? given
  | listed given =>
    obtain ⟨entry, member, rfl⟩ := List.mem_map.mp among
    exact Members.mem_parts_of_given?_object given (Members.mem_parts_of_mem member)
  | map given =>
    rw [List.mem_singleton.mp among]
    exact Members.mem_parts_of_given? given
  | own =>
    obtain ⟨entry, member, rfl⟩ := List.mem_map.mp among
    exact Members.mem_parts_of_mem (List.mem_filter.mp member).1

theorem ofObject_form (side : Side) (site : Site) (node : Members) : Form side site node (ofObject side site node) := by
  unfold ofObject
  split
  next found => exact .combination (gives_of_combinator? found)
  next =>
    split
    next given => exact .listed given
    next given _ => exact .map given
    next =>
      split
      next reference => exact .reference reference
      next => exact .own

theorem ofResult_form {side : Side} {site : Site} {node : Members} {result : Except SemanticError Field}
    (scalar : ∀ made, result = .ok made → ∃ type, made = .scalar site.name none type)
    (told : Told result) :
    Form side site node (ofResult result) := by
  cases result with
  | ok made =>
    obtain ⟨type, rfl⟩ := scalar made rfl
    exact .leaf type
  | error error => exact .wrong error (told error rfl)

theorem ofTyped_form (side : Side) (site : Site) (node : Members) : Form side site node (ofTyped side site node) := by
  unfold ofTyped
  split
  next type _ =>
    cases type with
    | integer => exact .leaf .integer
    | number => exact ofResult_form (fun made ok => numberField_scalar ok) (numberField_told _ _)
    | array =>
      unfold ofType
      dsimp only
      split
      next given => exact .array given
      next => exact .wrong _ rfl
    | object => exact ofObject_form side site node
    | boolean => exact .leaf .boolean
    | text => exact ofResult_form (fun made ok => textField_scalar ok) (textField_told _ _)
  next => exact .wrong _ rfl

/-- The place keeps its name, but what it says about being required may be lost. -/
theorem ofNode_form (manner : Manner) (site : Site) (node : Members) :
    ∃ place : Site, place.name = site.name ∧ Form manner.side place node (ofNode manner site (.object node)) := by
  cases manner with
  | definition =>
    simp only [ofNode]
    split
    · exact ⟨site, rfl, ofTyped_form .definition site node⟩
    · split
      next reference => exact ⟨site, rfl, .reference reference⟩
      next =>
        split
        next found => exact ⟨site, rfl, .combination (gives_of_combinator? found)⟩
        next => exact ⟨.named site.name, rfl, ofObject_form .definition _ node⟩
  | property =>
    simp only [ofNode]
    split
    next reference => exact ⟨site, rfl, .reference reference⟩
    next =>
      split
      · exact ⟨site, rfl, ofTyped_form .property site node⟩
      · split
        next found => exact ⟨site, rfl, .combination (gives_of_combinator? found)⟩
        next =>
          split
          · exact ⟨⟨site.name, site.required, none⟩, rfl, ofObject_form .property _ node⟩
          · exact ⟨site, rfl, .wrong _ rfl⟩
  | typed => exact ⟨site, rfl, ofTyped_form .property site node⟩

/-- Only an object has a shape that is not wrong. -/
theorem ofNode_object {manner : Manner} {site : Site} {node : Json} {shape : Shape}
    (told : ofNode manner site node = shape)
    (right : ∀ error, shape ≠ .wrong error) :
    ∃ members place, node = .object members ∧ place.name = site.name ∧ Form manner.side place members shape := by
  cases node with
  | object members =>
    obtain ⟨place, named, form⟩ := ofNode_form manner site members
    exact ⟨members, place, rfl, named, told ▸ form⟩
  | _ => cases manner <;> exact absurd told.symm (right _)

section
variable {manner : Manner} {site : Site} {node : Json}

/-- What stands inside a node is part of it, and where a field is needed there is something that it can come of. -/
theorem ofNode_group {inner : List Inner} {making : Making} (shape : ofNode manner site node = .group inner making) :
    (∀ one ∈ inner, one.node ∈ node.parts) ∧ (making.needs = true → inner ≠ []) ∧ making.name = site.name := by
  obtain ⟨members, place, rfl, named, form⟩ := ofNode_object shape (by simp)
  refine ⟨fun one among => List.mem_cons_of_mem _ (form.inside one among), ?_⟩
  cases form with
  | array => exact ⟨fun _ => List.cons_ne_nil _ _, named⟩
  | listed => exact ⟨(fun impossible => by cases impossible), named⟩
  | map => exact ⟨fun _ => List.cons_ne_nil _ _, named⟩
  | own => exact ⟨(fun impossible => by cases impossible), named⟩

theorem ofNode_leaf {field : Field} (shape : ofNode manner site node = .leaf field) :
    ∃ type, field = .scalar site.name none type := by
  obtain ⟨members, place, rfl, named, form⟩ := ofNode_object shape (by simp)
  cases form with
  | leaf type => exact ⟨type, by rw [named]⟩

theorem ofNode_reference {other : Site} {members : Members}
    (shape : ofNode manner site node = .reference other members) :
    node = .object members ∧ isReference members = true ∧ other.name = site.name := by
  obtain ⟨_, _, rfl, named, form⟩ := ofNode_object shape (by simp)
  cases form with
  | reference reference => exact ⟨rfl, reference, named⟩

theorem ofNode_combination {name : Option String} {members : Members} {combinator : Combinator}
    (shape : ofNode manner site node = .combination name members combinator) :
    node = .object members ∧ members.gives combinator.keyword = true ∧ name = site.name := by
  obtain ⟨_, _, rfl, named, form⟩ := ofNode_object shape (by simp)
  cases form with
  | combination gives => exact ⟨rfl, gives, named⟩

end
end Shape

theorem Field.ofFields_present (name : Option String) (required : Option Bool) (fields : List Field)
    (requiredNames : List String) :
    Field.ofFields name required fields
      (requiredNames.filter fun name => (fields.map Field.name).contains (some name)) =
      .ok (.object name required fields
        (requiredNames.filter fun name => (fields.map Field.name).contains (some name))) := by
  have none_missing : ∀ names : List String,
      (names.filter fun name => (fields.map Field.name).contains (some name)).filter
          (fun name => !(fields.map Field.name).contains (some name)) = [] := by
    intro names
    simp [List.filter_filter]
  simp only [Field.ofFields, none_missing]

namespace Walker
open Resolve Node

variable {σ : Type}

/-- The fields that come of the nodes inside another, in order. -/
def all (walker : Walker σ) (side : Side) : List Inner → Resolve σ (List Field)
  | [] => return []
  | inner :: rest => do
    match ← walker.child side inner.site inner.node with
    | some field => return field :: (← all walker side rest)
    | none =>
      inner.missing.forM log
      all walker side rest

def perform (context : Context σ) (walker : Walker σ) (side : Side) : Shape → Resolve σ (Option Field)
  | .wrong error => fail error
  | .leaf field => return some field
  | .group inner making => do orFail (making.make (← all walker side inner))
  | .reference site node =>
    match side with
    | .definition => definitionReference context walker site node
    | .property => return some (← propertyReference site node)
  | .combination name node combinator =>
    match side with
    | .definition => definitionBranch context walker name node combinator
    | .property => return some (← propertyBranch context walker name node combinator)

theorem listedProperties_eq (walker : Walker σ) (side : Side) (name : Option String) (requiredNames : List String)
    (members : Members) :
    listedProperties walker side name requiredNames members =
      all walker side (Shape.listed name requiredNames members) := by
  induction members with
  | nil => rfl
  | cons entry rest ih =>
    simp only [listedProperties, ih, Shape.listed, List.map_cons, all]
    rfl

theorem unlistedProperties_eq (walker : Walker σ) (members : Members) :
    unlistedProperties walker members = all walker .property (Shape.unlisted members) := by
  induction members with
  | nil => rfl
  | cons entry rest ih =>
    simp only [unlistedProperties, ih, Shape.unlisted, List.map_cons, all, child, bind_assoc, pure_bind]

theorem ownProperties_eq (walker : Walker σ) (side : Side) (members : Members) :
    ownProperties walker side members = all walker side (Shape.own members) := by
  induction members with
  | nil => rfl
  | cons entry rest ih =>
    obtain ⟨key, value⟩ := entry
    simp only [ownProperties, ih]
    by_cases skipped : (keywords.contains key || !value.isObject) = true
    · simp only [Shape.own, skipped, ite_true, List.filter_cons, Bool.not_true, Bool.false_eq_true, ite_false]
    · simp only [Bool.not_eq_true] at skipped
      simp only [Shape.own, skipped, Bool.false_eq_true, ite_false, List.filter_cons, Bool.not_false, ite_true,
        Shape.unlisted, List.map_cons, all]
      congr 1

theorem orFail_map {α β : Type} (f : α → β) (result : Except SemanticError α) :
    (orFail (result.map f) : Resolve σ β) = do return f (← orFail result) := by
  cases result with
  | ok value => exact (pure_bind _ _).symm
  | error error => rfl

variable (context : Context σ) (walker : Walker σ) (side : Side) (site : Site) (node : Members)

theorem array_eq : array walker side site node = perform context walker side (Shape.ofType side site node .array) := by
  simp only [Shape.ofType]
  split
  next items given =>
    simp only [array, given, perform, Shape.element, all, bind_assoc]
    congr 1
    funext element
    cases element with
    | some element => simp only [pure_bind, Making.make, orFail_map]
    | none => rfl
  next => simp only [array, *, perform]

theorem map_eq (values : Members) :
    map walker side site values = perform context walker side (.group (Shape.value side site values) (.map site)) := by
  simp only [map, perform, Shape.value, all, bind_assoc]
  congr 1
  funext value
  cases value with
  | some value => simp only [pure_bind, Making.make, orFail]
  | none => rfl

theorem listed_eq (properties : Members) :
    listed walker side site node properties = perform context walker side
      (.group (Shape.listed site.name (requiredNames node) properties)
        (.object site.name site.required (requiredNames node))) := by
  simp only [listed, perform, listedProperties_eq, Field.ofFields_present, ofField, pure_bind, Making.make, orFail]

theorem synthesized_eq (name : Option String) :
    synthesized walker side name node =
      perform context walker side (.group (Shape.own node) (.object name none [])) := by
  simp only [synthesized, perform, ownProperties_eq]
  rfl

theorem object_eq :
    object context walker side site node = perform context walker side (Shape.ofObject side site node) := by
  unfold Shape.ofObject
  cases found : combinator? node with
  | some combinator => cases side <;> simp only [object, found, perform]
  | none =>
    dsimp only
    split
    next properties given =>
      simp only [object, found, given]
      exact listed_eq context walker side site node properties
    next =>
      simp only [object, *]
      exact map_eq context walker side site _
    next =>
      simp only [object, *]
      split
      · cases side <;> rfl
      · exact synthesized_eq context walker side node site.name

theorem perform_ofResult (result : Except SemanticError Field) :
    perform context walker side (Shape.ofResult result) = do return some (← orFail result) := by
  cases result with
  | ok field => exact (pure_bind _ _).symm
  | error error => rfl

theorem ofType_eq (type : BaseType) :
    ofType context walker side site node type = perform context walker side (Shape.ofType side site node type) := by
  cases type with
  | integer => rfl
  | number => exact (perform_ofResult context walker side _).symm
  | array => exact array_eq context walker side site node
  | object => exact object_eq context walker side site node
  | boolean => rfl
  | text => exact (perform_ofResult context walker side _).symm

theorem typed_eq :
    (match type? node with
      | some type => ofType context walker side site node type
      | none => fail (.noType site.name)) = perform context walker side (Shape.ofTyped side site node) := by
  unfold Shape.ofTyped
  cases type? node with
  | some type => exact ofType_eq context walker side site node type
  | none => rfl

theorem definitionStep_eq (value : Json) :
    definitionStep context walker site value =
      perform context walker .definition (Shape.ofNode .definition site value) := by
  cases value with
  | object node =>
    simp only [definitionStep, Shape.ofNode]
    split
    · exact typed_eq context walker .definition site node
    · split
      · rfl
      · cases combinator? node with
        | some combinator => rfl
        | none => exact object_eq context walker .definition (.named site.name) node
  | _ => rfl

/-- On the side of the properties something comes of every node that does not fail. -/
theorem typedStep_eq :
    typedStep context walker site node =
      perform context walker .property (Shape.ofNode .typed site (.object node)) >>= expect site.name := by
  rw [Shape.ofNode, ← typed_eq]
  unfold typedStep
  cases type? node <;> rfl

theorem propertyStep_eq (value : Json) :
    propertyStep context walker site value =
      perform context walker .property (Shape.ofNode .property site value) >>= expect site.name := by
  cases value with
  | object node =>
    simp only [propertyStep, Shape.ofNode]
    split
    · simp only [perform, bind_assoc, pure_bind, expect, bind_pure]
    · split
      · exact typedStep_eq context walker site node
      · cases combinator? node with
        | some combinator => simp only [perform, bind_assoc, pure_bind, expect, bind_pure]
        | none =>
          dsimp only
          split
          · rw [object_eq]
          · rfl
  | _ => rfl

/-! A walker with room for one level more does what the shape says, with the other walker for the nodes inside. -/

theorem definition_succ (bound : Nat) (value : Json) :
    (FieldTree.walker context (bound + 1)).definition site value =
      perform context (FieldTree.walker context bound) .definition (Shape.ofNode .definition site value) :=
  definitionStep_eq context _ site value

theorem property_succ (bound : Nat) (value : Json) :
    (FieldTree.walker context (bound + 1)).property site value =
      perform context (FieldTree.walker context bound) .property (Shape.ofNode .property site value) >>=
        expect site.name :=
  propertyStep_eq context _ site value

theorem typed_succ (bound : Nat) :
    (FieldTree.walker context (bound + 1)).typed site node =
      perform context (FieldTree.walker context bound) .property (Shape.ofNode .typed site (.object node)) >>=
        expect site.name :=
  typedStep_eq context _ site node

end Walker
end FieldTree
