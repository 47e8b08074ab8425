import FieldTree.Proofs.Listing.Addresses
import FieldTree.Proofs.Resolution.Moments
import FieldTree.Proofs.Resolution.Presence

/-! Documents without empty keys. What is made of a node tells its fields by their keys, so the fields of definitions are
addressable at any depth. -/

namespace FieldTree

variable {σ : Type}

/-- No object in the value has the empty key. -/
def Json.Keyed (value : Json) : Prop := ∀ members, .object members ∈ value.parts → "" ∉ members.map Prod.fst

instance (value : Json) : Decidable value.Keyed :=
  decidable_of_iff (∀ part ∈ value.parts, ∀ members ∈ part.members?, "" ∉ members.map Prod.fst)
    ⟨fun keyed members among => keyed _ among members rfl, fun keyed part among members same => by
      cases part <;> cases same
      exact keyed members among⟩

namespace Json.Keyed

variable {members : Members} {key : String} {value : Json}

theorem inherited : Inherited Keyed :=
  fun {value _} keyed inside members deeper => keyed members (parts_trans deeper value inside)

theorem entry (keyed : (Json.object members).Keyed) (among : (key, value) ∈ members) : key ≠ "" ∧ value.Keyed := by
  refine ⟨?_, inherited.inside keyed (Members.mem_parts_of_mem among)⟩
  rintro rfl
  exact keyed members (self_mem_parts _) (List.mem_map_of_mem among)

theorem given (keyed : (Json.object members).Keyed) (given : members.given? key = some value) : value.Keyed :=
  inherited.given keyed given

theorem member (keyed : (Json.object members).Keyed) {entry : String × Json}
    (among : entry ∈ Json.members (members.given? key)) : entry.1 ≠ "" ∧ entry.2.Keyed := by
  cases found : members.given? key with
  | none =>
    rw [found] at among
    cases among
  | some value =>
    rw [found] at among
    cases value with
    | object inner => exact (keyed.given found).entry among
    | _ => cases among

end Json.Keyed

/-- The names in a task come of keys that are not empty. -/
def Task.Keyed : Task → Prop
  | .node _ site value => site.name ≠ some "" ∧ value.Keyed
  | .all _ inner => ∀ one ∈ inner, one.site.name ≠ some "" ∧ one.node.Keyed
  | .merge name branches => name ≠ some "" ∧ ∀ branch ∈ branches, (Json.object branch).Keyed

/-- The entries of the definitions have keys, at any depth. -/
def Members.Keyed (definitions : Members) : Prop := ∀ entry ∈ definitions, entry.1 ≠ "" ∧ entry.2.Keyed

theorem Task.keyed_unlisted {members : Members} (keyed : ∀ entry ∈ members, entry.1 ≠ "" ∧ entry.2.Keyed)
    (side : Side) : (Task.all side (Shape.unlisted members)).Keyed := by
  intro one among
  obtain ⟨entry, member, rfl⟩ := List.mem_map.mp among
  exact ⟨fun same => (keyed entry member).1 (Option.some.inj same), (keyed entry member).2⟩

theorem Task.keyed_group {manner : Manner} {site : Site} {node : Json} {inner : List Inner} {making : Making}
    (keyed : node.Keyed) (shape : Shape.ofNode manner site node = .group inner making) (side : Side) :
    (Task.all side inner).Keyed := by
  obtain ⟨members, place, rfl, _, form⟩ := Shape.ofNode_object shape (by simp)
  cases form with
  | array given =>
    intro one among
    rw [List.mem_singleton.mp among]
    exact ⟨by simp, keyed.given given⟩
  | listed given =>
    intro one among
    obtain ⟨entry, member, rfl⟩ := List.mem_map.mp among
    have here := (keyed.given given).entry member
    exact ⟨fun same => here.1 (Option.some.inj same), here.2⟩
  | map given =>
    intro one among
    rw [List.mem_singleton.mp among]
    exact ⟨by simp [Field.mapValueName], keyed.given given⟩
  | own => exact keyed_unlisted (fun entry member => keyed.entry (List.mem_filter.mp member).1) side

section
variable {context : Context σ} {before after : State σ}

theorem Walker.mem_of_take {name : Option String} {combinator : Combinator} {branches used : List Members}
    (taken : (Walker.take context name combinator branches).Ends before used after) {branch : Members}
    (member : branch ∈ used) : branch ∈ branches := by
  obtain ⟨answer, same⟩ := Combinator.exists_used_of_take taken
  exact Combinator.mem_of_used same member

/-- What a task begins has keys if the task has. -/
theorem Starts.keyed (definitions : context.definitions.Keyed) {task task' : Task} {before' : State σ}
    (starts : Starts context task before task' before') (keyed : task.Keyed) : task'.Keyed := by
  cases starts with
  | inside shape => exact Task.keyed_group keyed.2 shape _
  | body _ _ _ _ given =>
    obtain ⟨something, body⟩ := definitions _ (Members.mem_of_given? given)
    exact ⟨fun same => something (Option.some.inj same), body⟩
  | first shape listed taken =>
    obtain ⟨rfl, _, rfl⟩ := Shape.ofNode_combination shape
    exact ⟨keyed.1, Node.inherited_branch Json.Keyed.inherited keyed.2 listed (Walker.mem_of_take taken List.mem_cons_self)⟩
  | merge _ shape listed taken =>
    obtain ⟨rfl, _, rfl⟩ := Shape.ofNode_combination shape
    exact ⟨keyed.1, fun branch member => Node.inherited_branch Json.Keyed.inherited keyed.2 listed (Walker.mem_of_take taken member)⟩
  | scalar _ shape listed taken =>
    obtain ⟨rfl, _, rfl⟩ := Shape.ofNode_combination shape
    exact ⟨keyed.1, Node.inherited_branch Json.Keyed.inherited keyed.2 listed (Walker.mem_of_take taken List.mem_cons_self)⟩
  | here => exact keyed _ List.mem_cons_self
  | later => exact fun one among => keyed one (List.mem_cons_of_mem _ among)
  | inline => exact Task.keyed_unlisted (fun entry among => (keyed.2 _ List.mem_cons_self).member among) _
  | afterInline => exact ⟨keyed.1, fun branch member => keyed.2 branch (List.mem_cons_of_mem _ member)⟩
  | afterReference => exact ⟨keyed.1, fun branch member => keyed.2 branch (List.mem_cons_of_mem _ member)⟩

/-- The fields that come of inner nodes with keys have names. -/
theorem Yields.named_of_keyed {side : Side} {inner : List Inner} {fields : List Field}
    (yields : Yields context (.all side inner) before fields after) (keyed : (Task.all side inner).Keyed)
    (named : ∀ one ∈ inner, one.site.name.isSome) : ∀ field ∈ fields, field.Named := by
  intro field among
  obtain ⟨one, inside, same⟩ := List.mem_map.mp (yields.names_sublist.subset (List.mem_map_of_mem among))
  obtain ⟨name, told⟩ := Option.isSome_iff_exists.mp (named one inside)
  exact ⟨name, same.symm.trans told, fun empty => (keyed one inside).1 (told.trans (congrArg some empty))⟩

/-- What a making makes of fields that come of keyed nodes is addressable. -/
theorem Yields.made_addressable {manner : Manner} {site : Site} {node : Json} {inner : List Inner} {making : Making}
    {fields : List Field} {made : Field} (shape : Shape.ofNode manner site node = .group inner making)
    (each : Yields context (.all manner.side inner) before fields after) (makes : making.make fields = .ok (some made))
    (keyed : node.Keyed) : made.Addressable := by
  have inside := Task.keyed_group keyed shape manner.side
  obtain ⟨members, place, rfl, _, form⟩ := Shape.ofNode_object shape (by simp)
  cases form with
  | array =>
    cases fields with
    | nil => cases makes
    | cons element rest =>
      obtain ⟨minItems, unique, rfl, _⟩ := Making.make_array makes
      exact Field.addressable_of_contents rfl
  | listed =>
    cases makes
    refine Field.addressable_object.mpr (each.named_of_keyed inside fun one among => ?_)
    obtain ⟨entry, _, rfl⟩ := List.mem_map.mp among
    rfl
  | map =>
    cases fields with
    | nil => cases makes
    | cons value rest =>
      cases makes
      exact Field.addressable_of_contents rfl
  | own =>
    cases makes
    refine Field.addressable_object.mpr (each.named_of_keyed inside fun one among => ?_)
    obtain ⟨entry, _, rfl⟩ := List.mem_map.mp among
    rfl

end

/-- On the side of the definitions no branches are merged, so all fields there are addressable. -/
theorem Field.Law.addressable (context : Context σ) :
    Law context (fun task _ => task.side = .definition ∧ task.Keyed) Field.Addressable where
  rename name addressable := by simpa only [Field.Addressable, contents?_rename] using addressable
  withRequired required inObject _ addressable := by
    simpa only [Field.Addressable, contents?_withRequired] using addressable
  leaf shape := by
    obtain ⟨type, rfl⟩ := Shape.ofNode_leaf shape
    exact addressable_of_contents rfl
  made begun shape each makes := Yields.made_addressable shape each makes begun.2.2
  wrapped wraps := by
    obtain ⟨minItems, rfl, _⟩ := Node.arrayField_of_ok none wraps
    exact addressable_of_contents rfl
  merged side begun := by
    have other := side.symm.trans begun.1
    cases other
  empty _ := addressable_object.mpr (List.forall_mem_nil _)

/-! Documents -/

/-- No object of the document has the empty key. -/
def Document.Keyed (document : Document) : Prop := ∀ root, document.root = .ok root → (Json.object root).Keyed

theorem Members.keyed_declarations {root : Members} (keyed : (Json.object root).Keyed) : root.declarations.Keyed :=
  fun _ among => keyed.member among

namespace Document

variable {root : Members} {selector : Selector σ} {start : σ}

theorem keyed_outer (keyed : (Json.object root).Keyed) : (Task.all .property (outer root)).Keyed := by
  intro one among
  obtain ⟨entry, member, rfl⟩ := List.mem_map.mp among
  have here := keyed.member member
  exact ⟨fun same => here.1 (Option.some.inj same), here.2⟩

/-- Whatever definitions a document without empty keys has, they are addressable. -/
theorem addressable_of_definesAll (keyed : (Json.object root).Keyed) {middle : State σ}
    (defines : DefinesAll (context root selector) root.declarations (State.fresh start) middle) :
    middle.cache.Every fun _ field => field.Everywhere Field.Addressable := by
  have definitions := Members.keyed_declarations keyed
  refine upholds_of_definesAll (.addressable _)
    (fun begun starts => ⟨starts.side_eq.trans begun.1, starts.keyed definitions begun.2⟩) ?_ defines
  intro passed name node rest before task state declared _ begins
  obtain ⟨something, here⟩ := definitions (name, node) (declared ▸ List.mem_append_right _ List.mem_cons_self)
  have named : some name ≠ some "" := fun same => something (Option.some.inj same)
  cases begins with
  | plain => exact ⟨rfl, named, here⟩
  | aliased => exact ⟨rfl, named, here⟩
  | ahead _ _ _ given => exact ⟨rfl, named, (definitions _ (Members.mem_of_given? given)).2⟩

end Document
end FieldTree
