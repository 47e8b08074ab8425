import FieldTree.Proofs.Resolution.FirstPlaces
import FieldTree.Proofs.Resolution.Presence

/-! The side of the properties. One field comes of every node, and where nothing offers a choice the state stays as it
is. -/

namespace FieldTree

variable {σ : Type}

/-- Nothing in the task has alternatives. -/
def Task.Choiceless : Task → Prop
  | .node _ _ value => value.Choiceless
  | .all _ inner => ∀ one ∈ inner, one.node.Choiceless
  | .merge _ branches => ∀ branch ∈ branches, (Json.object branch).Choiceless

section
variable {context : Context σ} {side : Side} {inner others : List Inner} {before middle after : State σ}
  {fields fields' : List Field}

theorem Yields.single {manner : Manner} {site : Site} {node : Json}
    (yields : Yields context (.node manner site node) before fields after) (side : manner.side = .property) :
    ∃ field, fields = [field] :=
  yields.whole (.of_property side) (.of_property side)

theorem Yields.append (first : Yields context (.all side inner) before fields middle)
    (second : Yields context (.all side others) middle fields' after) :
    Yields context (.all side (inner ++ others)) before (fields ++ fields') after := by
  induction inner generalizing before fields with
  | nil =>
    cases first
    exact second
  | cons one rest ih =>
    cases first with
    | allCons here later =>
      rw [List.append_assoc]
      exact .allCons here (ih later)

theorem Yields.of_append (yields : Yields context (.all side (inner ++ others)) before fields after) :
    ∃ first second middle, fields = first ++ second ∧ Yields context (.all side inner) before first middle ∧
      Yields context (.all side others) middle second after := by
  induction inner generalizing before fields with
  | nil => exact ⟨[], fields, before, rfl, .allNil, yields⟩
  | cons one rest ih =>
    cases yields with
    | @allCons _ _ _ here _ _ _ _ walked later =>
      obtain ⟨first, second, middle, rfl, first_walked, second_walked⟩ := ih later
      exact ⟨here ++ first, second, middle, (List.append_assoc ..).symm, .allCons walked first_walked, second_walked⟩

/-- On the side of the properties a task without alternatives leaves the state as it is. -/
theorem Yields.still {task : Task} (yields : Yields context task before fields after) (side : task.side = .property)
    (choiceless : task.Choiceless) : after = before := by
  induction yields with
  | leaf => rfl
  | group shape _ _ ih =>
    exact ih side fun one among => Json.Choiceless.inherited choiceless ((Shape.ofNode_group shape).1 one among)
  | dropped => cases side
  | reused => cases side
  | unexpanded => cases side
  | extracted => cases side
  | declared => rfl
  | empty => cases side
  | first => cases side
  | merged _ shape listed _ taken _ ih =>
    obtain ⟨rfl, gives, _⟩ := Shape.ofNode_combination shape
    obtain rfl := Json.Choiceless.allOf choiceless gives
    obtain ⟨rfl, rfl⟩ := Resolve.ends_pure.mp taken
    exact ih rfl fun branch among => Node.inherited_branch Json.Choiceless.inherited choiceless listed among
  | scalar _ shape _ _ alternative =>
    obtain ⟨rfl, gives, _⟩ := Shape.ofNode_combination shape
    exact absurd (Json.Choiceless.allOf choiceless gives) alternative
  | allNil => rfl
  | @allCons side' inner _ _ _ _ _ _ here _ ihHere ihLater =>
    obtain rfl : side' = .property := side
    obtain ⟨field, rfl⟩ := here.single rfl
    obtain ⟨first, rest⟩ := List.forall_mem_cons.mp choiceless
    exact (ihLater rfl rest).trans (ihHere rfl first)
  | mergeNil => rfl
  | @mergeInline _ branch _ _ _ _ _ _ _ _ _ ihHere ihLater =>
    obtain ⟨first, rest⟩ := List.forall_mem_cons.mp choiceless
    refine (ihLater rfl rest).trans (ihHere rfl fun one among => ?_)
    obtain ⟨entry, listed, rfl⟩ := List.mem_map.mp among
    exact first.member listed
  | mergeReference _ _ _ _ _ ih => exact ih rfl (List.forall_mem_cons.mp choiceless).2

end
end FieldTree
