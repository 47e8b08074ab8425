import FieldTree.Resolution.Constraint
import FieldTree.Resolution.State
/-! Resolution of a schema node into a field. A node is met on one of two sides. On the side of the
definitions a reference is followed into the body of its target, unless the target is being resolved
already; then nothing comes of it, nor of an array or map around it. On the side of the properties all
definitions are resolved, and a reference takes its target as it is.

Every function here takes the walker for the nodes below as an argument. `walker` closes the circle, with a
bound on how deep nodes may be nested. -/

namespace FieldTree

inductive Side
  | definition
  | property
  deriving DecidableEq

/-- What a place in the document gives to the field that stands there. -/
structure Site where
  name : Option String
  /-- Whether the object around it lists the name as required. -/
  required : Option Bool
  /-- Whether the place is among the properties of an object. -/
  inObject : Option Bool

def Site.named (name : Option String) : Site := ⟨name, none, none⟩

structure Walker (σ : Type) where
  definition : Site → Json → Resolve σ (Option Field)
  property : Site → Json → Resolve σ Field
  /-- A property whose node tells its type, however it was reached. -/
  typed : Site → Members → Resolve σ Field

namespace Walker
open Resolve Node

variable {σ : Type}

def child (walker : Walker σ) : Side → Site → Json → Resolve σ (Option Field)
  | .definition, site, node => walker.definition site node
  | .property, site, node => return some (← walker.property site node)

def orFail {α : Type} : Except SemanticError α → Resolve σ α
  | .ok value => pure value
  | .error error => fail error

/-! References -/

/-- Resolves the body of a definition, and keeps what comes of it. -/
def extract (context : Context σ) (walker : Walker σ) (target : String) (site : Site) :
    Resolve σ (Option Field) :=
  match context.definitions.given? target with
  | some (.object body) => do
    let resolved ← walker.definition { site with name := some target } (.object body)
    match resolved with
    | some field => store target field
    | none => pure ()
    return resolved
  | _ => fail (.undeclared target)

def definitionReference (context : Context σ) (walker : Walker σ) (site : Site) (node : Members) :
    Resolve σ (Option Field) := do
  let target ← orFail (Node.target node)
  match ← cached? target with
  | some field =>
    log (.reused target site.name)
    return some (field.rename site.name)
  | none =>
    let resolved ← guarded target fun entered =>
      if entered then extract context walker target site
      else do
        log (.unexpanded target site.name)
        return none
    return resolved.map (Field.rename site.name)

def declared (target : String) : Resolve σ Field := do
  match ← cached? target with
  | some field => return field
  | none => fail (.undeclared target)

/-- Objects and collections take over whether they are required; scalars do not. -/
def atSite (site : Site) (field : Field) : Field :=
  if field.kind.isScalar then field else field.withRequired site.required site.inObject

/-- A reference beside the type array is the element of that array. -/
def propertyReference (site : Site) (node : Members) : Resolve σ Field := do
  let field ← declared (← orFail (target node))
  if type? node = some .array then
    orFail (arrayField site.name node (field.rename none) (requiredCollection site.inObject site.required))
  else return atSite site (field.rename site.name)

/-! Combinations -/

def select (context : Context σ) (name : Option String) (combinator : Combinator) (branches : List Members) :
    Resolve σ Members := do
  if branches.isEmpty then fail (.emptyCombination combinator name)
  let index ← choose context branches.length
  log (.selected combinator index branches.length name)
  return branches.get index

/-- Of several branches that hold together, only the first is resolved. -/
def definitionBranch (context : Context σ) (walker : Walker σ) (name : Option String) (node : Members)
    (combinator : Combinator) : Resolve σ (Option Field) := do
  let branches ← orFail (branches node combinator name)
  match combinator, branches with
  | .allOf, [] => return some (.object name none [] [])
  | .allOf, branch :: _ => walker.definition (.named name) (.object branch)
  | _, branches => walker.definition (.named name) (.object (← select context name combinator branches))

def unlistedProperties (walker : Walker σ) : Members → Resolve σ (List Field)
  | [] => return []
  | (key, node) :: rest => do
    let field ← walker.property (.named (some key)) node
    return field :: (← unlistedProperties walker rest)

/-- The fields that a structural branch adds to a combination: those of the object it refers to or
describes, and any other referenced field as it is. -/
def contribution (walker : Walker σ) (name : Option String) (branch : Members) : Resolve σ (List Field) := do
  if isReference branch then
    let field := (← declared (← orFail (target branch))).rename name
    if hasType branch || field.isCollection then return [field] else ofField field.properties
  else unlistedProperties walker (Json.members (branch.given? "properties"))

def contributions (walker : Walker σ) (name : Option String) : List Members → Resolve σ (List Field)
  | [] => return []
  | branch :: rest => do
    let fields ← contribution walker name branch
    return fields ++ (← contributions walker name rest)

def combined (walker : Walker σ) (name : Option String) (branches : List Members) : Resolve σ Field := do
  ofField (Field.ofFields name (some false) (← contributions walker name branches) [])

/-- Either all branches are structural or none is. -/
def propertyBranch (context : Context σ) (walker : Walker σ) (name : Option String) (node : Members)
    (combinator : Combinator) : Resolve σ Field := do
  let branches ← orFail (branches node combinator name)
  if branches.all isStructural then
    if combinator = .allOf then combined walker name branches
    else combined walker name [← select context name combinator branches]
  else if branches.any isStructural then fail (.mixedCombination name)
  else if combinator = .allOf then fail (.scalarAllOf name)
  else walker.typed (.named name) (← select context name combinator branches)

/-! Arrays and objects -/

def array (walker : Walker σ) (side : Side) (site : Site) (node : Members) : Resolve σ (Option Field) :=
  match node.given? "items" with
  | some (.object items) => do
    match ← walker.child side ⟨none, some (elementRequired node), none⟩ (.object items) with
    | some element =>
      return some (← orFail (arrayField site.name node element (requiredCollection site.inObject site.required)))
    | none =>
      log (.droppedArray site.name)
      return none
  | _ => fail (.noItems site.name)

def listedProperties (walker : Walker σ) (side : Side) (name : Option String) (requiredNames : List String) :
    Members → Resolve σ (List Field)
  | [] => return []
  | (key, node) :: rest => do
    match ← walker.child side ⟨some key, some (requiredNames.contains key), some true⟩ node with
    | some field => return field :: (← listedProperties walker side name requiredNames rest)
    | none =>
      log (.droppedProperty key name)
      listedProperties walker side name requiredNames rest

/-- An object with the properties it lists. A dropped property is not required. -/
def listed (walker : Walker σ) (side : Side) (site : Site) (node properties : Members) : Resolve σ (Option Field) := do
  let requiredNames := Node.requiredNames node
  let fields ← listedProperties walker side site.name requiredNames properties
  let names := fields.map Field.name
  return some (← ofField (Field.ofFields site.name site.required fields
    (requiredNames.filter fun name => names.contains (some name))))

def map (walker : Walker σ) (side : Side) (site : Site) (values : Members) : Resolve σ (Option Field) := do
  let required := if side = .definition then site.required else some false
  match ← walker.child side ⟨some Field.mapValueName, required, none⟩ (.object values) with
  | some value =>
    return some (.map site.name (some (requiredCollection site.inObject site.required)) value)
  | none =>
    log (.droppedMap site.name)
    return none

def ownProperties (walker : Walker σ) (side : Side) : Members → Resolve σ (List Field)
  | [] => return []
  | (key, node) :: rest => do
    if keywords.contains key || !node.isObject then ownProperties walker side rest
    else
      match ← walker.child side (.named (some key)) node with
      | some field => return field :: (← ownProperties walker side rest)
      | none => ownProperties walker side rest

/-- An object that lists no properties has its own members as properties. -/
def synthesized (walker : Walker σ) (side : Side) (name : Option String) (node : Members) :
    Resolve σ (Option Field) := do
  return some (← ofField (Field.ofFields name none (← ownProperties walker side node) []))

def object (context : Context σ) (walker : Walker σ) (side : Side) (site : Site) (node : Members) :
    Resolve σ (Option Field) :=
  match combinator? node with
  | some combinator =>
    match side with
    | .definition => definitionBranch context walker site.name node combinator
    | .property => return some (← propertyBranch context walker site.name node combinator)
  | none =>
    match node.given? "properties", node.given? "additionalProperties" with
    | some (.object properties), _ => listed walker side site node properties
    | _, some (.object (member :: values)) => map walker side site (member :: values)
    | _, _ =>
      if isReference node then
        match side with
        | .definition => definitionReference context walker site node
        | .property => return some (← propertyReference site node)
      else synthesized walker side site.name node

/-! Nodes -/

def ofType (context : Context σ) (walker : Walker σ) (side : Side) (site : Site) (node : Members) :
    BaseType → Resolve σ (Option Field)
  | .integer => return some (.scalar site.name none .integer)
  | .number => return some (← orFail (numberField site.name node))
  | .array => array walker side site node
  | .object => object context walker side site node
  | .boolean => return some (.scalar site.name none .boolean)
  | .text => return some (← orFail (textField site.name node))

def definitionStep (context : Context σ) (walker : Walker σ) (site : Site) : Json → Resolve σ (Option Field)
  | .object node =>
    if hasType node then
      match type? node with
      | some type => ofType context walker .definition site node type
      | none => fail (.noType site.name)
    else if isReference node then definitionReference context walker site node
    else
      match combinator? node with
      | some combinator => definitionBranch context walker site.name node combinator
      | none => object context walker .definition (.named site.name) node
  | _ => fail (.unsupportedShape site.name)

/-- On the side of the properties something must come of every node. -/
def expect (name : Option String) : Option Field → Resolve σ Field
  | some field => return field
  | none => fail (.unresolved name)

def typedStep (context : Context σ) (walker : Walker σ) (site : Site) (node : Members) : Resolve σ Field := do
  match type? node with
  | some type => expect site.name (← ofType context walker .property site node type)
  | none => fail (.noType site.name)

def propertyStep (context : Context σ) (walker : Walker σ) (site : Site) : Json → Resolve σ Field
  | .object node => do
    if isReference node then propertyReference site node
    else if hasType node then typedStep context walker site node
    else
      match combinator? node with
      | some combinator => propertyBranch context walker site.name node combinator
      | none =>
        if Members.gives node "properties" then
          expect site.name (← object context walker .property ⟨site.name, site.required, none⟩ node)
        else fail (.unsupportedShape site.name)
  | _ => fail (.unsupportedShape site.name)

end Walker

/-- A walker for nodes nested at most as deep as the bound says. -/
def walker {σ : Type} (context : Context σ) : Nat → Walker σ
  | 0 => ⟨fun _ _ => Resolve.fail .tooDeep, fun _ _ => Resolve.fail .tooDeep, fun _ _ => Resolve.fail .tooDeep⟩
  | bound + 1 =>
    let below := walker context bound
    ⟨below.definitionStep context, below.propertyStep context, below.typedStep context⟩

end FieldTree
