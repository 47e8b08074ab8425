import FieldTree.Proofs.Resolution.Walks

/-! What the walk of a node has done, read off the shape of the node. -/

namespace FieldTree

variable {σ : Type}

/-- How a node of this shape has been walked. -/
def Shape.Walked (context : Context σ) : Side → Shape → State σ → List Field → State σ → Prop
  | _, .wrong _, _, _, _ => False
  | _, .leaf field, before, fields, after => fields = [field] ∧ after = before
  | side, .group inner making, before, fields, after =>
    ∃ each made, Yields context (.all side inner) before each after ∧ making.make each = .ok made ∧
      fields = made.toList ∧ (side = .property → made.isSome)
  | .definition, .reference site node, before, fields, after =>
    ∃ target, Node.target node = .ok target ∧
      ((∃ field, before.cache.get? target = some field ∧ fields = [field.rename site.name] ∧
          after = before.logged (.reused target site.name)) ∨
        (before.cache.get? target = none ∧ target ∈ before.guard ∧ fields = [] ∧
          after = before.logged (.unexpanded target site.name)) ∨
        (before.cache.get? target = none ∧ target ∉ before.guard ∧ ∃ body made middle,
          context.definitions.given? target = some (.object body) ∧
            Yields context (.node .definition { site with name := some target } (.object body))
              (before.under (target :: before.guard)) made middle ∧
            fields = made.map (Field.rename site.name) ∧
              after = (middle.keep target made).under (middle.guard.erase target)))
  | .property, .reference site node, before, fields, after =>
    ∃ target field taken, Node.target node = .ok target ∧ before.cache.get? target = some field ∧
      site.takeOver node field = .ok taken ∧ fields = [taken] ∧ after = before
  | .definition, .combination name node combinator, before, fields, after =>
    ∃ branches used middle, Node.branches node combinator name = .ok branches ∧
      (Walker.take context name combinator branches).Ends before used middle ∧
        match used with
        | [] => fields = [.object name none [] []] ∧ after = middle
        | branch :: _ => Yields context (.node .definition (.named name) (.object branch)) middle fields after
  | .property, .combination name node combinator, before, fields, after =>
    ∃ branches used middle, Node.branches node combinator name = .ok branches ∧
      (Walker.take context name combinator branches).Ends before used middle ∧
        if branches.all Node.isStructural then
          ∃ parts, Yields context (.merge name used) middle parts after ∧ fields = [.object name (some false) parts []]
        else
          branches.any Node.isStructural = false ∧ combinator ≠ .allOf ∧ ∃ branch, used = [branch] ∧
            Yields context (.node .typed (.named name) (.object branch)) middle fields after

section
variable {context : Context σ} {manner : Manner} {site : Site} {node : Json} {before after : State σ}
  {fields : List Field}

theorem Yields.walked (yields : Yields context (.node manner site node) before fields after) {shape : Shape}
    (told : Shape.ofNode manner site node = shape) : shape.Walked context manner.side before fields after := by
  subst told
  cases yields with
  | leaf shape =>
    rw [shape]
    exact ⟨rfl, rfl⟩
  | group shape each makes =>
    rw [shape]
    exact ⟨_, _, each, makes, rfl, fun _ => rfl⟩
  | dropped shape each makes =>
    rw [shape]
    exact ⟨_, _, each, makes, rfl, fun impossible => by cases impossible⟩
  | reused shape refers known =>
    rw [shape]
    exact ⟨_, refers, .inl ⟨_, known, rfl, rfl⟩⟩
  | unexpanded shape refers unknown held =>
    rw [shape]
    exact ⟨_, refers, .inr (.inl ⟨unknown, held, rfl, rfl⟩)⟩
  | extracted shape refers unknown free given inside =>
    rw [shape]
    exact ⟨_, refers, .inr (.inr ⟨unknown, free, _, _, _, given, inside, rfl, rfl⟩)⟩
  | declared side shape refers known takes =>
    rw [shape, side]
    exact ⟨_, _, _, refers, known, takes, rfl, rfl⟩
  | empty shape listed taken =>
    rw [shape]
    exact ⟨_, [], _, listed, taken, rfl, rfl⟩
  | first shape listed taken walked =>
    rw [shape]
    exact ⟨_, _ :: _, _, listed, taken, walked⟩
  | merged side shape listed structural taken walked =>
    rw [shape, side]
    refine ⟨_, _, _, listed, taken, ?_⟩
    rw [if_pos structural]
    exact ⟨_, walked, rfl⟩
  | scalar side shape listed scalars alternative taken walked =>
    rw [shape, side]
    refine ⟨_, _, _, listed, taken, ?_⟩
    rw [if_neg (by simp [scalars.1])]
    exact ⟨scalars.2, alternative, _, rfl, walked⟩

theorem Yields.optional (yields : Yields context (.node .definition site node) before fields after) :
    ∃ child : Option Field, fields = child.toList := by
  obtain ⟨child, rfl, _⟩ := @Walker.Walks.child _ _ _ _ .definition _ _ _ yields.walks
  exact ⟨child, rfl⟩

end
end FieldTree
