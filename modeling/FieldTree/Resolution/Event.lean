import FieldTree.Resolution.Error
/-! What happens during a resolution, for those who want to follow it. -/

namespace FieldTree

inductive Event
  | resolving (definition : String)
  | vanished (definition : String)
  | kept (definition : String)
  | reused (definition : String) (field : Option String)
  | unexpanded (definition : String) (field : Option String)
  | selected (combinator : Combinator) (index count : Nat) (field : Option String)
  | droppedArray (field : Option String)
  | droppedMap (field : Option String)
  | droppedProperty (property : String) (object : Option String)
  deriving DecidableEq

def Event.message : Event → String
  | .resolving definition => "Resolving definition '" ++ definition ++ "'."
  | .vanished definition => "Definition '" ++ definition ++ "' resolved to nothing."
  | .kept definition => "Definition '" ++ definition ++ "' already cached; keeping it."
  | .reused definition field =>
    "Reusing cached definition '" ++ definition ++ "' for " ++ fieldText field ++ "."
  | .unexpanded definition field =>
    "Definition '" ++ definition ++ "' is already being resolved; leaving " ++ fieldText field ++ " unexpanded."
  | .selected combinator index count field =>
    "Selected " ++ combinator.keyword ++ " branch " ++ toString index ++ " of " ++ toString count ++ " for " ++
      fieldText field ++ "."
  | .droppedArray field => "Array " ++ fieldText field ++ " has an unexpanded element; dropping it."
  | .droppedMap field => "Map " ++ fieldText field ++ " has an unexpanded value type; dropping it."
  | .droppedProperty property object =>
    "Dropping unexpanded property '" ++ property ++ "' of '" ++ nameText object ++ "'."

end FieldTree
