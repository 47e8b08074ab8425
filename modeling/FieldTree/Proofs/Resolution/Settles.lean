import FieldTree.Proofs.Resolution.References
import FieldTree.Proofs.Resolution.Yields

/-! What a node comes to if it is known what every reference stands for: no cache is filled, no name is under guard
and nothing is left out. The rules are those of the walk, without its state. -/

namespace FieldTree

/-- The selector answers each number of branches in one way, whatever its state. -/
def Selector.Answers {σ : Type} (selector : Selector σ) (answer : Int → Except ChoiceError Int) : Prop :=
  ∀ count state, (selector.choose count state).map Prod.fst = answer count

/-- The branches that are used, if there is such a choice. -/
def Combinator.used (answer : Int → Except ChoiceError Int) (combinator : Combinator) (branches : List Members) :
    Option (List Members) :=
  if combinator = .allOf then some branches
  else
    match answer branches.length with
    | .ok index => if 0 ≤ index then (branches[index.toNat]?).map fun branch => [branch] else none
    | .error _ => none

def Task.side : Task → Side
  | .node manner _ _ => manner.side
  | .all side _ => side
  | .merge _ _ => .property

def Task.references : Task → List String
  | .node _ _ value => value.references
  | .all _ inner => inner.flatMap fun one => one.node.references
  | .merge _ branches => branches.flatMap fun branch => (Json.object branch).references

inductive Settles (answer : Int → Except ChoiceError Int) (lookup : String → Field → Prop) : Task → List Field → Prop
  | leaf {manner site node field} (shape : Shape.ofNode manner site node = .leaf field) :
    Settles answer lookup (.node manner site node) [field]
  | group {manner site node inner making fields made} (shape : Shape.ofNode manner site node = .group inner making)
    (each : Settles answer lookup (.all manner.side inner) fields) (makes : making.make fields = .ok (some made)) :
    Settles answer lookup (.node manner site node) [made]
  | followed {site node other members target field}
    (shape : Shape.ofNode .definition site node = .reference other members)
    (refers : Node.target members = .ok target) (known : lookup target field) :
    Settles answer lookup (.node .definition site node) [field.rename other.name]
  | declared {manner site node other members target field taken} (side : manner.side = .property)
    (shape : Shape.ofNode manner site node = .reference other members)
    (refers : Node.target members = .ok target) (known : lookup target field)
    (takes : other.takeOver members field = .ok taken) : Settles answer lookup (.node manner site node) [taken]
  | empty {site node name members combinator branches}
    (shape : Shape.ofNode .definition site node = .combination name members combinator)
    (listed : Node.branches members combinator name = .ok branches)
    (taken : combinator.used answer branches = some []) :
    Settles answer lookup (.node .definition site node) [.object name none [] []]
  | first {site node name members combinator branches branch others fields}
    (shape : Shape.ofNode .definition site node = .combination name members combinator)
    (listed : Node.branches members combinator name = .ok branches)
    (taken : combinator.used answer branches = some (branch :: others))
    (walked : Settles answer lookup (.node .definition (.named name) (.object branch)) fields) :
    Settles answer lookup (.node .definition site node) fields
  | merged {manner site node name members combinator branches used fields} (side : manner.side = .property)
    (shape : Shape.ofNode manner site node = .combination name members combinator)
    (listed : Node.branches members combinator name = .ok branches) (structural : branches.all Node.isStructural = true)
    (taken : combinator.used answer branches = some used) (walked : Settles answer lookup (.merge name used) fields) :
    Settles answer lookup (.node manner site node) [.object name (some false) fields []]
  | scalar {manner site node name members combinator branches branch fields} (side : manner.side = .property)
    (shape : Shape.ofNode manner site node = .combination name members combinator)
    (listed : Node.branches members combinator name = .ok branches)
    (scalars : branches.all Node.isStructural = false ∧ branches.any Node.isStructural = false)
    (alternative : combinator ≠ .allOf) (taken : combinator.used answer branches = some [branch])
    (walked : Settles answer lookup (.node .typed (.named name) (.object branch)) fields) :
    Settles answer lookup (.node manner site node) fields
  | allNil {side} : Settles answer lookup (.all side []) []
  | allCons {side inner rest field others}
    (here : Settles answer lookup (.node side.manner inner.site inner.node) [field])
    (later : Settles answer lookup (.all side rest) others) :
    Settles answer lookup (.all side (inner :: rest)) (field :: others)
  | mergeNil {name} : Settles answer lookup (.merge name []) []
  | mergeInline {name branch rest fields others} (inline : Node.isReference branch = false)
    (here : Settles answer lookup (.all .property (Shape.unlisted (Json.members (branch.given? "properties")))) fields)
    (later : Settles answer lookup (.merge name rest) others) :
    Settles answer lookup (.merge name (branch :: rest)) (fields ++ others)
  | mergeReference {name branch rest target field fields others} (reference : Node.isReference branch = true)
    (refers : Node.target branch = .ok target) (known : lookup target field)
    (adds : field.added name branch = .ok fields)
    (later : Settles answer lookup (.merge name rest) others) :
    Settles answer lookup (.merge name (branch :: rest)) (fields ++ others)

/-- The inner task is met on the same side, or on that of the properties, and refers to nothing else. -/
structure Task.Leads (outer inner : Task) : Prop where
  sides : inner.side = .definition → outer.side = .definition
  references : ∀ target ∈ inner.references, target ∈ outer.references

theorem Combinator.mem_of_used {answer : Int → Except ChoiceError Int} {combinator : Combinator}
    {branches used : List Members}
    (taken : combinator.used answer branches = some used) {branch : Members} (member : branch ∈ used) :
    branch ∈ branches := by
  unfold Combinator.used at taken
  split at taken
  · cases taken
    exact member
  · split at taken
    · split at taken
      · obtain ⟨chosen, found, rfl⟩ := Option.map_eq_some_iff.mp taken
        rw [List.mem_singleton.mp member]
        exact List.mem_of_getElem? found
      · cases taken
    · cases taken

section
variable {manner : Manner} {site : Site} {node : Json} {members : Members}

theorem Task.leads_group {inner : List Inner} {making : Making}
    (shape : Shape.ofNode manner site node = .group inner making) :
    (Task.node manner site node).Leads (.all manner.side inner) where
  sides := id
  references := by
    intro target among
    obtain ⟨one, member, refers⟩ := List.mem_flatMap.mp among
    exact Json.references_of_mem ((Shape.ofNode_group shape).1 one member) refers

theorem Task.mem_references {other : Site} {target : String}
    (shape : Shape.ofNode manner site node = .reference other members) (refers : Node.target members = .ok target) :
    target ∈ (Task.node manner site node).references := by
  obtain ⟨rfl, reference, _⟩ := Shape.ofNode_reference shape
  exact Node.mem_references reference refers

section
variable {name : Option String} {combinator : Combinator} {branches used others : List Members} {branch : Members}
  {answer : Int → Except ChoiceError Int}

theorem Task.references_branch (shape : Shape.ofNode manner site node = .combination name members combinator)
    (listed : Node.branches members combinator name = .ok branches)
    (taken : combinator.used answer branches = some used)
    (member : branch ∈ used) {target : String} (refers : target ∈ (Json.object branch).references) :
    target ∈ (Task.node manner site node).references := by
  obtain ⟨rfl, _⟩ := Shape.ofNode_combination shape
  have inside := Node.mem_parts_of_branches listed (Combinator.mem_of_used taken member)
  exact Json.references_of_mem (List.mem_cons_of_mem _ inside) refers

theorem Task.leads_branch (shape : Shape.ofNode manner site node = .combination name members combinator)
    (listed : Node.branches members combinator name = .ok branches)
    (taken : combinator.used answer branches = some (branch :: others)) (manner' : Manner) (site' : Site)
    (sides : manner'.side = manner.side) :
    (Task.node manner site node).Leads (.node manner' site' (.object branch)) where
  sides := fun side => sides.symm.trans side
  references := fun _ among => references_branch shape listed taken List.mem_cons_self among

theorem Task.leads_merge (shape : Shape.ofNode manner site node = .combination name members combinator)
    (listed : Node.branches members combinator name = .ok branches)
    (taken : combinator.used answer branches = some used) :
    (Task.node manner site node).Leads (.merge name used) where
  sides := fun impossible => by cases impossible
  references := by
    intro target among
    obtain ⟨branch, member, refers⟩ := List.mem_flatMap.mp among
    exact references_branch shape listed taken member refers

end
end

theorem Task.leads_here {side : Side} {inner : Inner} {rest : List Inner} :
    (Task.all side (inner :: rest)).Leads (.node side.manner inner.site inner.node) where
  sides := by cases side <;> exact id
  references := fun _ among => List.mem_append_left _ among

theorem Task.leads_later {side : Side} {inner : Inner} {rest : List Inner} :
    (Task.all side (inner :: rest)).Leads (.all side rest) where
  sides := id
  references := fun _ among => List.mem_append_right _ among

theorem Task.leads_inline {name : Option String} {branch : Members} {rest : List Members} :
    (Task.merge name (branch :: rest)).Leads
      (.all .property (Shape.unlisted (Json.members (branch.given? "properties")))) where
  sides := id
  references := by
    intro target among
    obtain ⟨one, member, refers⟩ := List.mem_flatMap.mp among
    obtain ⟨entry, listed, rfl⟩ := List.mem_map.mp member
    have inside : entry.2 ∈ Json.partsOfMembers branch := Node.mem_parts_of_members (Members.mem_parts_of_mem listed)
    exact List.mem_append_left _ (Json.references_of_mem (List.mem_cons_of_mem _ inside) refers)

theorem Task.leads_rest {name : Option String} {branch : Members} {rest : List Members} :
    (Task.merge name (branch :: rest)).Leads (.merge name rest) where
  sides := id
  references := fun _ among => List.mem_append_right _ among

theorem Task.mem_references_merge {name : Option String} {branch : Members} {rest : List Members} {target : String}
    (reference : Node.isReference branch = true) (refers : Node.target branch = .ok target) :
    target ∈ (Task.merge name (branch :: rest)).references :=
  List.mem_append_left _ (Node.mem_references reference refers)

namespace Settles

variable {answer : Int → Except ChoiceError Int} {lookup lookup' : String → Field → Prop} {task : Task}
  {fields : List Field}

theorem mono (settles : Settles answer lookup task fields)
    (grows : ∀ target ∈ task.references, ∀ field, lookup target field → lookup' target field) :
    Settles answer lookup' task fields := by
  induction settles with
  | leaf shape => exact .leaf shape
  | group shape _ makes ih =>
    exact .group shape (ih fun target among => grows target ((Task.leads_group shape).references target among)) makes
  | followed shape refers known => exact .followed shape refers (grows _ (Task.mem_references shape refers) _ known)
  | declared side shape refers known takes =>
    exact .declared side shape refers (grows _ (Task.mem_references shape refers) _ known) takes
  | empty shape listed taken => exact .empty shape listed taken
  | first shape listed taken _ ih =>
    refine .first shape listed taken (ih fun target among => grows target ?_)
    exact Task.references_branch shape listed taken List.mem_cons_self among
  | merged side shape listed structural taken _ ih =>
    refine .merged side shape listed structural taken (ih fun target among => grows target ?_)
    exact (Task.leads_merge shape listed taken).references target among
  | scalar side shape listed scalars alternative taken _ ih =>
    refine .scalar side shape listed scalars alternative taken (ih fun target among => grows target ?_)
    exact Task.references_branch shape listed taken List.mem_cons_self among
  | allNil => exact .allNil
  | allCons _ _ ihHere ihLater =>
    refine .allCons (ihHere fun target among => grows target ?_) (ihLater fun target among => grows target ?_)
    · exact Task.leads_here.references target among
    · exact Task.leads_later.references target among
  | mergeNil => exact .mergeNil
  | mergeInline inline _ _ ihHere ihLater =>
    refine .mergeInline inline (ihHere fun target among => grows target ?_)
      (ihLater fun target among => grows target ?_)
    · exact Task.leads_inline.references target among
    · exact Task.leads_rest.references target among
  | mergeReference reference refers known adds _ ih =>
    refine .mergeReference reference refers (grows _ (Task.mem_references_merge reference refers) _ known) adds
      (ih fun target among => grows target ?_)
    exact Task.leads_rest.references target among

end Settles

/-- What has to be found for a node of this shape to come to the fields. -/
def Shape.Comes (answer : Int → Except ChoiceError Int) (lookup : String → Field → Prop) :
    Side → Shape → List Field → Prop
  | _, .wrong _, _ => False
  | _, .leaf field, fields => fields = [field]
  | side, .group inner making, fields =>
    ∃ each made, Settles answer lookup (.all side inner) each ∧ making.make each = .ok (some made) ∧ fields = [made]
  | .definition, .reference site node, fields =>
    ∃ target field, Node.target node = .ok target ∧ lookup target field ∧ fields = [field.rename site.name]
  | .property, .reference site node, fields =>
    ∃ target field taken, Node.target node = .ok target ∧ lookup target field ∧ site.takeOver node field = .ok taken ∧
      fields = [taken]
  | .definition, .combination name node combinator, fields =>
    ∃ branches used, Node.branches node combinator name = .ok branches ∧ combinator.used answer branches = some used ∧
      match used with
      | [] => fields = [.object name none [] []]
      | branch :: _ => Settles answer lookup (.node .definition (.named name) (.object branch)) fields
  | .property, .combination name node combinator, fields =>
    ∃ branches used, Node.branches node combinator name = .ok branches ∧ combinator.used answer branches = some used ∧
      if branches.all Node.isStructural then
        ∃ parts, Settles answer lookup (.merge name used) parts ∧ fields = [.object name (some false) parts []]
      else
        branches.any Node.isStructural = false ∧ combinator ≠ .allOf ∧
          ∃ branch, used = [branch] ∧ Settles answer lookup (.node .typed (.named name) (.object branch)) fields

theorem Settles.comes {answer : Int → Except ChoiceError Int} {lookup : String → Field → Prop} {manner : Manner}
    {site : Site}
    {node : Json} {fields : List Field} (settles : Settles answer lookup (.node manner site node) fields)
    {shape : Shape}
    (told : Shape.ofNode manner site node = shape) : shape.Comes answer lookup manner.side fields := by
  subst told
  cases settles with
  | leaf shape =>
    rw [shape]
    rfl
  | group shape each makes =>
    rw [shape]
    exact ⟨_, _, each, makes, rfl⟩
  | followed shape refers known =>
    rw [shape]
    exact ⟨_, _, refers, known, rfl⟩
  | declared side shape refers known takes =>
    rw [shape, side]
    exact ⟨_, _, _, refers, known, takes, rfl⟩
  | empty shape listed taken =>
    rw [shape]
    exact ⟨_, [], listed, taken, rfl⟩
  | first shape listed taken walked =>
    rw [shape]
    exact ⟨_, _ :: _, listed, taken, walked⟩
  | merged side shape listed structural taken walked =>
    rw [shape, side]
    refine ⟨_, _, listed, taken, ?_⟩
    rw [if_pos structural]
    exact ⟨_, walked, rfl⟩
  | scalar side shape listed scalars alternative taken walked =>
    rw [shape, side]
    refine ⟨_, _, listed, taken, ?_⟩
    rw [if_neg (by simp [scalars.1])]
    exact ⟨scalars.2, alternative, _, rfl, walked⟩

theorem Settles.of_comes {answer : Int → Except ChoiceError Int} {lookup : String → Field → Prop} {manner : Manner}
    {site : Site}
    {node : Json} {fields : List Field} {shape : Shape} (told : Shape.ofNode manner site node = shape)
    (comes : shape.Comes answer lookup manner.side fields) : Settles answer lookup (.node manner site node) fields := by
  have property : ∀ {manner : Manner}, manner ≠ .definition → manner.side = .property := by
    intro manner other
    cases manner with
    | definition => exact absurd rfl other
    | _ => rfl
  cases shape with
  | wrong => exact comes.elim
  | leaf field =>
    obtain rfl : fields = [field] := comes
    exact .leaf told
  | group inner making =>
    obtain ⟨each, made, all, makes, rfl⟩ := comes
    exact .group told all makes
  | reference other members =>
    by_cases here : manner = .definition
    · subst here
      obtain ⟨target, field, refers, known, rfl⟩ := comes
      exact .followed told refers known
    · have side := property here
      rw [side] at comes
      obtain ⟨target, field, taken, refers, known, takes, rfl⟩ := comes
      exact .declared side told refers known takes
  | combination name members combinator =>
    by_cases here : manner = .definition
    · subst here
      obtain ⟨branches, used, listed, taken, comes⟩ := comes
      cases used with
      | nil =>
        obtain rfl : fields = [.object name none [] []] := comes
        exact .empty told listed taken
      | cons => exact .first told listed taken comes
    · have side := property here
      rw [side] at comes
      obtain ⟨branches, used, listed, taken, comes⟩ := comes
      split at comes
      next structural =>
        obtain ⟨parts, walked, rfl⟩ := comes
        exact .merged side told listed structural taken walked
      next scalars =>
        obtain ⟨never, alternative, branch, rfl, walked⟩ := comes
        exact .scalar side told listed ⟨Bool.eq_false_iff.mpr scalars, never⟩ alternative taken walked

/-- The branches of a combination are known, and so are those of them that are used. -/
theorem Combinator.of_used {answer : Int → Except ChoiceError Int} {name : Option String} {members : Members}
    {combinator : Combinator} {branches used : List Members} {holds : List Members → List Members → Prop}
    (listed : Node.branches members combinator name = .ok branches)
    (taken : combinator.used answer branches = some used)
    (comes : ∃ branches used, Node.branches members combinator name = .ok branches ∧
      combinator.used answer branches = some used ∧ holds branches used) : holds branches used := by
  obtain ⟨branches', used', listed', taken', holds⟩ := comes
  rw [listed] at listed'
  cases listed'
  rw [taken] at taken'
  cases taken'
  exact holds

/-- Where the references agree, a node comes to one field only. -/
theorem Settles.unique {answer : Int → Except ChoiceError Int} {lookup lookup' : String → Field → Prop} {task : Task}
    {fields others : List Field} (first : Settles answer lookup task fields)
    (second : Settles answer lookup' task others)
    (agree : ∀ target ∈ task.references, ∀ field other, lookup target field → lookup' target other → field = other) :
    fields = others := by
  induction first generalizing others with
  | leaf shape => exact (second.comes shape).symm
  | group shape _ makes ih =>
    obtain ⟨each, made, all, makes', rfl⟩ := second.comes shape
    obtain rfl := ih all fun target among => agree target ((Task.leads_group shape).references target among)
    rw [makes] at makes'
    cases makes'
    rfl
  | followed shape refers known =>
    obtain ⟨target, field, refers', known', rfl⟩ := second.comes shape
    rw [refers] at refers'
    cases refers'
    rw [agree _ (Task.mem_references shape refers) _ _ known known']
  | declared side shape refers known takes =>
    have comes := second.comes shape
    rw [side] at comes
    obtain ⟨target, field, taken, refers', known', takes', rfl⟩ := comes
    rw [refers] at refers'
    cases refers'
    rw [agree _ (Task.mem_references shape refers) _ _ known known', takes'] at takes
    cases takes
    rfl
  | empty shape listed taken => exact (Combinator.of_used listed taken (second.comes shape)).symm
  | first shape listed taken _ ih =>
    apply ih (Combinator.of_used listed taken (second.comes shape))
    exact fun target among => agree target (Task.references_branch shape listed taken List.mem_cons_self among)
  | merged side shape listed structural taken _ ih =>
    have comes := second.comes shape
    rw [side] at comes
    have comes := Combinator.of_used listed taken comes
    rw [if_pos structural] at comes
    obtain ⟨parts, walked, rfl⟩ := comes
    rw [ih walked fun target among => agree target ((Task.leads_merge shape listed taken).references target among)]
  | scalar side shape listed scalars alternative taken _ ih =>
    have comes := second.comes shape
    rw [side] at comes
    have comes := Combinator.of_used listed taken comes
    rw [if_neg (by simp [scalars.1])] at comes
    obtain ⟨_, _, branch, same, walked⟩ := comes
    cases same
    exact ih walked fun target among =>
      agree target (Task.references_branch shape listed taken List.mem_cons_self among)
  | allNil =>
    cases second
    rfl
  | allCons _ _ ihHere ihLater =>
    cases second with
    | allCons here later =>
      rw [ihLater later fun target among => agree target (Task.leads_later.references target among)]
      rw [List.cons.inj (ihHere here fun target among => agree target (Task.leads_here.references target among)) |>.1]
  | mergeNil =>
    cases second
    rfl
  | mergeInline inline _ _ ihHere ihLater =>
    cases second with
    | mergeInline _ here later =>
      rw [ihHere here fun target among => agree target (Task.leads_inline.references target among)]
      rw [ihLater later fun target among => agree target (Task.leads_rest.references target among)]
    | mergeReference reference =>
      rw [inline] at reference
      cases reference
  | mergeReference reference refers known adds _ ih =>
    cases second with
    | mergeInline inline =>
      rw [inline] at reference
      cases reference
    | mergeReference _ refers' known' adds' later =>
      rw [refers] at refers'
      cases refers'
      rw [agree _ (Task.mem_references_merge reference refers) _ _ known known', adds'] at adds
      cases adds
      rw [ih later fun target among => agree target (Task.leads_rest.references target among)]

end FieldTree
