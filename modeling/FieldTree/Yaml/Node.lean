import FieldTree.Yaml.Value
/-! Nodes: the structure of a document, with a tag on every part. What a node means is settled level by level,
so that of several faults the one nearest to the root counts. -/

namespace FieldTree.Yaml

inductive Node
  | scalar (tag : Tag) (text : String)
  | sequence (tag : Tag) (items : List Node)
  | mapping (tag : Tag) (entries : List (Node × Node))

namespace Node

def null : Node := .scalar .null ""

def tag : Node → Tag
  | .scalar tag _ => tag
  | .sequence tag _ => tag
  | .mapping tag _ => tag

/-! Merging -/

def entries? : Node → Option (List (Node × Node))
  | .mapping _ entries => some entries
  | _ => none

/-- The entries that a mapping, or a list of mappings, gives to a mapping it is merged into. Of a list the
later ones come first, so that the earlier ones win. -/
def mergeable? : Node → Option (List (Node × Node))
  | .sequence _ items => (items.mapM entries?).map fun lists => lists.reverse.flatten
  | node => node.entries?

def isMergeKey (entry : Node × Node) : Bool := entry.1.tag = .merge

/-- The key of a default value is a text like any other. -/
def asKey : Node → Node
  | .scalar .value text => .scalar .str text
  | node => node

/-- What is merged comes first, so that the mapping's own entries win. Where something cannot be merged the
entries stay as they are. -/
def mergeEntries (entries : List (Node × Node)) : List (Node × Node) :=
  let (merges, own) := entries.partition isMergeKey
  let own := own.map fun (key, value) => (asKey key, value)
  match merges.mapM fun (_, value) => value.mergeable? with
  | some lists => lists.flatten ++ own
  | none => merges ++ own

/-- A mapping under the tag of a scalar stands for the text that it has for a default value. -/
def mappingOf (tag : Tag) (entries : List (Node × Node)) : Node :=
  match tag.isCollection, entries.find? fun (key, _) => key.tag = .value with
  | false, some (_, .scalar _ text) => .scalar tag text
  | _, _ => .mapping tag (mergeEntries entries)

mutual
/-- The node with everything merged, in its parts too. -/
def merged : Node → Node
  | .scalar tag text => .scalar tag text
  | .sequence tag items => .sequence tag (mergedItems items)
  | .mapping tag entries => mappingOf tag (mergedEntries entries)

def mergedItems : List Node → List Node
  | [] => []
  | item :: rest => item.merged :: mergedItems rest

def mergedEntries : List (Node × Node) → List (Node × Node)
  | [] => []
  | (key, value) :: rest => (key.merged, value.merged) :: mergedEntries rest
end

/-! Faults -/

/-- What is left to look into once a node has been met: the node itself if it is tagged as a collection. -/
def meet (node : Node) : Except Fault (List Node) :=
  if node.tag.isCollection then .ok [node]
  else
    match node with
    | .scalar tag text => (tag.scalarValue text).map fun _ => []
    | _ => .error .malformed

/-- A collection is no key. -/
def meetEntry (entry : Node × Node) : Except Fault (List Node) := do
  let inKey ← entry.1.meet
  if entry.1.tag.isCollection then throw .malformed
  return inKey ++ (← entry.2.meet)

/-- An item of an ordered mapping is a mapping of one entry. -/
def meetPair : Node → Except Fault (List Node)
  | .mapping _ [(key, value)] => return (← key.meet) ++ (← value.meet)
  | _ => .error .malformed

/-- Looks into a collection, and gives the collections in it. -/
def lookInto : Node → Except Fault (List Node)
  | .sequence .seq items => items.flatMapM meet
  | .sequence .omap items => items.flatMapM meetPair
  | .sequence .pairs items => items.flatMapM meetPair
  | .mapping .map entries => inside entries
  | .mapping .set entries => inside entries
  | _ => .error .malformed
where
  inside (entries : List (Node × Node)) : Except Fault (List Node) :=
    if entries.any isMergeKey then .error .malformed else entries.flatMapM meetEntry

/-- Looks into the collections of one level, then into those of the next. -/
def checkLevels : Nat → List Node → Except Fault Unit
  | 0, _ => .ok ()
  | _, [] => .ok ()
  | rounds + 1, level => do checkLevels rounds (← level.flatMapM lookInto)

/-! Values -/

mutual
/-- The value of a node without faults. -/
def value : Node → Yaml
  | .scalar tag text =>
    match tag.scalarValue text with
    | .ok value => value
    | .error _ => .null
  | .sequence _ items => .sequence (values items)
  | .mapping tag entries =>
    if tag = .set then .set ((entryValues entries).map Prod.fst) else .mapping (entryValues entries)

def values : List Node → List Yaml
  | [] => []
  | item :: rest => item.value :: values rest

def entryValues : List (Node × Node) → List (Yaml × Yaml)
  | [] => []
  | (key, value) :: rest => (key.value, value.value) :: entryValues rest
end

/-- The value of a node that is less deep than `bound`. -/
def read (bound : Nat) (node : Node) : Except Fault Yaml := do
  let node := node.merged
  checkLevels bound (← node.meet)
  return node.value

end Node
end FieldTree.Yaml
