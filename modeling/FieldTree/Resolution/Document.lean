import FieldTree.Json.Reader
import FieldTree.Resolution.Walk
/-! Resolution of a document: first every definition, in the order of the document, then the properties
of the root. -/

namespace FieldTree

/-- A schema document as it comes in. -/
inductive Document
  | text (value : String)
  | bytes (value : List UInt8)
  | value (value : Json)

/-- The members of the root. A value that is neither text nor an object is no document. -/
def Document.root : Document → Except FormatError Members
  | .text source => ofRead (Json.read? source)
  | .bytes source => ofRead ((Text.decode? source).bind Json.read?)
  | .value (.object members) => .ok members
  | .value (.string source) => ofRead (Json.read? source)
  | .value _ => .error .undecodable
where
  ofRead : Option Json → Except FormatError Members
    | some (.object members) => .ok members
    | some _ => .error .rootNotObject
    | none => .error .undecodable

namespace Document
open Resolve Walker Node

variable {σ : Type}

def storeUnlessNothing (name : String) : Option Field → Resolve σ Unit
  | some field => store name field
  | none => pure ()

/-- A definition with a body of its own. What a reference to it has made of it meanwhile is kept. -/
def plainDefinition (walker : Walker σ) (name : String) (node : Json) : Resolve σ Unit := do
  match ← walker.definition (.named (some name)) node with
  | none => log (.vanished name)
  | some field => if (← cached? name).isSome then log (.kept name) else store name field

/-- A definition that stands for another. It takes over the other's field, or its body if that is yet to
come and no reference itself. -/
def aliasDefinition (context : Context σ) (walker : Walker σ) (name : String) (node : Members) :
    Resolve σ Unit := do
  let target ← orFail (target node)
  if (← cached? target).isSome then
    storeUnlessNothing name (← walker.definition (.named (some name)) (.object node))
  else
    match context.definitions.given? target with
    | some (.object body) =>
      if isReference body then fail (.unresolvedAlias name target)
      else
        let resolved ← guarded target fun entered =>
          if entered then walker.definition (.named (some name)) (.object body)
          else fail (.mutualAlias name target)
        storeUnlessNothing name resolved
    | _ => fail (.unresolvedAlias name target)

def definition (context : Context σ) (walker : Walker σ) (name : String) (node : Json) : Resolve σ Unit := do
  log (.resolving name)
  match node with
  | .object members =>
    if isReference members then aliasDefinition context walker name members
    else plainDefinition walker name node
  | _ => plainDefinition walker name node

def definitions (context : Context σ) (walker : Walker σ) : Members → Resolve σ Unit
  | [] => return ()
  | (name, node) :: rest => do
    definition context walker name node
    definitions context walker rest

/-- The required names of the root, then those of its properties, each with the property before it. -/
def requiredPaths (root : Members) : List String :=
  let names (node : Members) : List String := (Json.items (node.given? "required")).map Json.text
  let inside : String × Json → List String
    | (key, .object node) => (names node).map fun name => key ++ "." ++ name
    | _ => []
  names root ++ (Json.members (root.given? "properties")).flatMap inside

def properties (walker : Walker σ) (requiredNames : List String) (inObject : Bool) :
    Members → Resolve σ (List Field)
  | [] => return []
  | (key, node) :: rest => do
    let field ← walker.property ⟨some key, some (requiredNames.contains key), some inObject⟩ node
    return field :: (← properties walker requiredNames inObject rest)

def schema (context : Context σ) (walker : Walker σ) (root : Members) : Resolve σ Schema := do
  definitions context walker context.definitions
  let requiredNames := requiredPaths root
  let isObject := type? root = some .object
  let properties ← properties walker requiredNames isObject (Json.members (root.given? "properties"))
  let textAt (key : String) := Json.textOf (root.given? key)
  return {
    id := textAt "$id", name := textAt "$schema", type := textAt "type"
    requiredNames, properties, definitions := (← get).cache }

end Document

/-- What a resolution ends with, the state in which it leaves the selector, and what happened. -/
structure Outcome (σ : Type) where
  result : Except Failure Schema
  selector : σ
  events : List Event

/-- Resolves a document in which nodes are nested at most as deep as the bound says. Following a reference counts as
one level more. -/
def Document.resolveWithin {σ : Type} (bound : Nat) (selector : Selector σ) (start : σ) (document : Document) :
    Outcome σ :=
  match document.root with
  | .error cause => ⟨.error (.document (.format cause)), start, []⟩
  | .ok root =>
    let context : Context σ := ⟨Json.members (root.given? "definitions"), selector⟩
    let (result, state) := (Document.schema context (walker context bound) root).run.run ⟨[], [], start, []⟩
    ⟨result, state.selector, state.events.reverse⟩

/-- Resolves documents one after another. Each finds the selector as the one before left it. -/
def Document.resolveEachWithin {σ : Type} (bound : Nat) (selector : Selector σ) : σ → List Document → List (Outcome σ)
  | _, [] => []
  | start, document :: rest =>
    let outcome := document.resolveWithin bound selector start
    outcome :: resolveEachWithin bound selector outcome.selector rest

end FieldTree
