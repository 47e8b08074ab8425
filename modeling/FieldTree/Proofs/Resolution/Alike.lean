import FieldTree.Proofs.Field.Erase
import FieldTree.Proofs.Resolution.Settles
import Mathlib.Data.List.Forall2

/-! What a place says about being required goes no further than to what the field says about being required. A node
at two places comes to fields that are alike but for that, and for the name of the place. -/

namespace FieldTree

def Inner.Alike (first second : Inner) : Prop := first.site.name = second.site.name ∧ first.node = second.node

inductive Making.Alike : Making → Making → Prop
  | array {site site' node} : Alike (.array site node) (.array site' node)
  | object {name name' required required' requiredNames} :
    Alike (.object name required requiredNames) (.object name' required' requiredNames)
  | map {site site'} : Alike (.map site) (.map site')

inductive Shape.Alike : Shape → Shape → Prop
  | wrong {error error'} : Alike (.wrong error) (.wrong error')
  | leaf {field field'} (same : field'.bare = field.bare) : Alike (.leaf field) (.leaf field')
  | group {inner inner' making making'} (each : List.Forall₂ Inner.Alike inner inner')
    (makes : Making.Alike making making') : Alike (.group inner making) (.group inner' making')
  | reference {site site' node} : Alike (.reference site node) (.reference site' node)
  | combination {name name' node combinator} :
    Alike (.combination name node combinator) (.combination name' node combinator)

/-- The branches of a combination take its name, so among the properties the name must be the same. -/
inductive Task.Alike : Task → Task → Prop
  | node {manner site site' value} (named : manner.side = .property → site.name = site'.name) :
    Alike (.node manner site value) (.node manner site' value)
  | all {side inner inner'} (each : List.Forall₂ Inner.Alike inner inner') : Alike (.all side inner) (.all side inner')
  | merge {name branches} : Alike (.merge name branches) (.merge name branches)

/-- What two places have in common: of a node, all but the name and the requirements; of more, all but these. -/
def Task.Agree : Task → List Field → List Field → Prop
  | .node .., fields, others => fields.map Field.bare = others.map Field.bare
  | _, fields, others => Field.eraseAll fields = Field.eraseAll others

theorem Task.single_of_agree {manner : Manner} {site : Site} {value : Json} {fields : List Field} {field : Field}
    (agree : (Task.node manner site value).Agree fields [field]) :
    ∃ made, fields = [made] ∧ made.bare = field.bare := by
  obtain ⟨made, rfl, bare⟩ := List.map_eq_singleton_iff.mp agree
  exact ⟨made, rfl, bare⟩

/-! Names -/

theorem Site.name_of_takeOver {site : Site} {node : Members} {field taken : Field}
    (takes : site.takeOver node field = .ok taken) : taken.name = site.name := by
  unfold takeOver at takes
  split at takes
  · obtain ⟨minItems, rfl, _⟩ := Node.arrayField_of_ok none takes
    rfl
  · cases takes
    unfold Walker.atSite
    split <;> simp

/-- A node comes to one field, which has the name of its place. -/
def Task.Named : Task → List Field → Prop
  | .node _ site _, fields => ∃ field, fields = [field] ∧ field.name = site.name
  | _, _ => True

theorem Settles.named {answer : Int → Except ChoiceError Int} {lookup : String → Field → Prop} {task : Task}
    {fields : List Field} (settles : Settles answer lookup task fields) : task.Named fields := by
  induction settles with
  | leaf shape =>
    obtain ⟨type, rfl⟩ := Shape.ofNode_leaf shape
    exact ⟨_, rfl, rfl⟩
  | group shape _ makes => exact ⟨_, rfl, (Making.name_of_make makes).trans (Shape.ofNode_group shape).2.2⟩
  | followed shape => exact ⟨_, rfl, (Field.name_rename _ _).trans (Shape.ofNode_reference shape).2.2⟩
  | declared _ shape _ _ takes => exact ⟨_, rfl, (Site.name_of_takeOver takes).trans (Shape.ofNode_reference shape).2.2⟩
  | empty shape => exact ⟨_, rfl, (Shape.ofNode_combination shape).2.2⟩
  | first shape _ _ _ ih =>
    obtain ⟨field, rfl, named⟩ := ih
    exact ⟨field, rfl, named.trans (Shape.ofNode_combination shape).2.2⟩
  | merged _ shape => exact ⟨_, rfl, (Shape.ofNode_combination shape).2.2⟩
  | scalar _ shape _ _ _ _ _ ih =>
    obtain ⟨field, rfl, named⟩ := ih
    exact ⟨field, rfl, named.trans (Shape.ofNode_combination shape).2.2⟩
  | _ => trivial

theorem Yields.named {σ : Type} {context : Context σ} {manner : Manner} {site : Site} {node : Json}
    {before after : State σ}
    {fields : List Field} (yields : Yields context (.node manner site node) before fields after) :
    ∀ field ∈ fields, field.name = site.name := by
  generalize same : Task.node manner site node = task at yields
  induction yields generalizing manner site node with
  | leaf shape =>
    cases same
    obtain ⟨type, rfl⟩ := Shape.ofNode_leaf shape
    exact List.forall_mem_singleton.mpr rfl
  | group shape _ makes =>
    cases same
    exact List.forall_mem_singleton.mpr ((Making.name_of_make makes).trans (Shape.ofNode_group shape).2.2)
  | dropped => exact List.forall_mem_nil _
  | reused shape =>
    cases same
    exact List.forall_mem_singleton.mpr ((Field.name_rename _ _).trans (Shape.ofNode_reference shape).2.2)
  | unexpanded => exact List.forall_mem_nil _
  | extracted shape =>
    cases same
    intro field among
    obtain ⟨made, _, rfl⟩ := List.mem_map.mp among
    exact (Field.name_rename _ _).trans (Shape.ofNode_reference shape).2.2
  | declared _ shape _ _ takes =>
    cases same
    exact List.forall_mem_singleton.mpr ((Site.name_of_takeOver takes).trans (Shape.ofNode_reference shape).2.2)
  | empty shape =>
    cases same
    exact List.forall_mem_singleton.mpr (Shape.ofNode_combination shape).2.2
  | first shape _ _ _ ih =>
    cases same
    exact fun field among => (ih rfl field among).trans (Shape.ofNode_combination shape).2.2
  | merged _ shape =>
    cases same
    exact List.forall_mem_singleton.mpr (Shape.ofNode_combination shape).2.2
  | scalar _ shape _ _ _ _ _ ih =>
    cases same
    exact fun field among => (ih rfl field among).trans (Shape.ofNode_combination shape).2.2
  | _ => cases same

/-! Places that differ -/

namespace Shape
open Node

theorem alike_refl_unlisted (members : Members) : List.Forall₂ Inner.Alike (unlisted members) (unlisted members) :=
  List.forall₂_same.mpr fun _ _ => ⟨rfl, rfl⟩

theorem alike_ofResult {result result' : Except SemanticError Field}
    (forth : ∀ field, result = .ok field → ∃ field', result' = .ok field' ∧ field'.bare = field.bare)
    (back : ∀ field, result' = .ok field → ∃ field', result = .ok field') :
    Alike (ofResult result) (ofResult result') := by
  cases result with
  | ok field =>
    obtain ⟨field', rfl, same⟩ := forth field rfl
    exact .leaf same
  | error error =>
    cases result' with
    | ok field =>
      obtain ⟨_, impossible⟩ := back field rfl
      cases impossible
    | error error' => exact .wrong

theorem alike_ofObject (side : Side) (site site' : Site) (node : Members) :
    Alike (ofObject side site node) (ofObject side site' node) := by
  unfold ofObject
  split
  · exact .combination
  · split
    next properties _ =>
      refine .group ?_ .object
      unfold listed
      rw [List.forall₂_map_left_iff, List.forall₂_map_right_iff]
      exact List.forall₂_same.mpr fun _ _ => ⟨rfl, rfl⟩
    next => exact .group (.cons ⟨rfl, rfl⟩ .nil) .map
    next =>
      split
      · exact .reference
      · exact .group (alike_refl_unlisted _) .object

theorem alike_ofTyped (side : Side) (site site' : Site) (node : Members) :
    Alike (ofTyped side site node) (ofTyped side site' node) := by
  unfold ofTyped
  split
  next type _ =>
    cases type with
    | integer => exact .leaf rfl
    | number =>
      refine alike_ofResult (fun field ok => ?_) (fun field ok => ?_)
      · exact ⟨_, numberField_of_ok site'.name ok, Field.bare_rename _ _⟩
      · exact ⟨_, numberField_of_ok site.name ok⟩
    | array =>
      unfold ofType
      dsimp only
      split
      · exact .group (.cons ⟨rfl, rfl⟩ .nil) .array
      · exact .wrong
    | object => exact alike_ofObject side site site' node
    | boolean => exact .leaf rfl
    | text =>
      refine alike_ofResult (fun field ok => ?_) (fun field ok => ?_)
      · exact ⟨_, textField_of_ok site'.name ok, Field.bare_rename _ _⟩
      · exact ⟨_, textField_of_ok site.name ok⟩
  · exact .wrong

theorem alike_ofNode (manner : Manner) (site site' : Site) (node : Json) :
    Alike (ofNode manner site node) (ofNode manner site' node) := by
  cases node with
  | object members =>
    cases manner with
    | definition =>
      simp only [ofNode]
      split
      · exact alike_ofTyped _ _ _ _
      · split
        · exact .reference
        · split
          · exact .combination
          · exact alike_ofObject _ _ _ _
    | property =>
      simp only [ofNode]
      split
      · exact .reference
      · split
        · exact alike_ofTyped _ _ _ _
        · split
          · exact .combination
          · split
            · exact alike_ofObject _ _ _ _
            · exact .wrong
    | typed => exact alike_ofTyped _ _ _ _
  | _ => cases manner <;> exact .wrong

section
variable {manner : Manner} {site : Site} {node : Json} (site' : Site)

theorem alike_leaf {field : Field} (shape : ofNode manner site node = .leaf field) :
    ∃ field', ofNode manner site' node = .leaf field' ∧ field'.bare = field.bare := by
  have alike := shape ▸ alike_ofNode manner site site' node
  generalize ofNode manner site' node = other at alike
  obtain _ | same := alike
  exact ⟨_, rfl, same⟩

theorem alike_group {inner : List Inner} {making : Making} (shape : ofNode manner site node = .group inner making) :
    ∃ inner' making', ofNode manner site' node = .group inner' making' ∧ List.Forall₂ Inner.Alike inner inner' ∧
      Making.Alike making making' := by
  have alike := shape ▸ alike_ofNode manner site site' node
  generalize ofNode manner site' node = other at alike
  cases alike with
  | group each makes => exact ⟨_, _, rfl, each, makes⟩

theorem alike_reference {other : Site} {members : Members}
    (shape : ofNode manner site node = .reference other members) :
    ∃ other', ofNode manner site' node = .reference other' members := by
  have alike := shape ▸ alike_ofNode manner site site' node
  generalize ofNode manner site' node = other at alike
  cases alike with
  | reference => exact ⟨_, rfl⟩

theorem alike_combination {name : Option String} {members : Members} {combinator : Combinator}
    (shape : ofNode manner site node = .combination name members combinator) :
    ofNode manner site' node = .combination site'.name members combinator := by
  have alike := shape ▸ alike_ofNode manner site site' node
  generalize told : ofNode manner site' node = other at alike
  cases alike with
  | combination => rw [(ofNode_combination told).2.2]

end
end Shape

theorem Making.alike_make {making making' : Making} {fields fields' : List Field} {made : Field}
    (alike : Making.Alike making making') (same : Field.eraseAll fields' = Field.eraseAll fields)
    (makes : making.make fields = .ok (some made)) :
    ∃ made', making'.make fields' = .ok (some made') ∧ made'.bare = made.bare := by
  have each : ∀ {field : Field} {rest : List Field}, fields = field :: rest →
      ∃ field' rest', fields' = field' :: rest' ∧ field'.erase = field.erase := by
    rintro field rest rfl
    cases fields' with
    | nil => cases same
    | cons field' rest' => exact ⟨field', rest', rfl, (List.cons.inj same).1⟩
  cases alike with
  | @array site site' node =>
    cases fields with
    | nil => cases makes
    | cons element rest =>
      obtain ⟨element', rest', rfl, erased⟩ := each rfl
      obtain ⟨minItems, unique, rfl, again⟩ := make_array makes
      refine ⟨_, again site' element' rest', ?_⟩
      simp only [Field.bare_array, erased]
  | object =>
    cases makes
    simp only [make, Field.map_name_of_eraseAll same]
    refine ⟨_, rfl, ?_⟩
    simp only [Field.bare_object, same]
  | map =>
    cases fields with
    | nil => cases makes
    | cons value rest =>
      obtain ⟨value', rest', rfl, erased⟩ := each rfl
      cases makes
      refine ⟨_, rfl, ?_⟩
      simp only [Field.bare_map, erased]

theorem Walker.bare_atSite (site : Site) (field : Field) : (atSite site field).bare = field.bare := by
  unfold atSite
  split
  · rfl
  · simp only [Field.bare, Field.erase_rename, Field.erase_withRequired]

theorem Site.alike_takeOver {site : Site} (site' : Site) {node : Members} {field field' taken : Field}
    (same : field'.erase = field.erase) (takes : site.takeOver node field = .ok taken) :
    ∃ taken', site'.takeOver node field' = .ok taken' ∧ taken'.bare = taken.bare := by
  unfold takeOver at takes ⊢
  split at takes
  next array =>
    simp only [array, ite_true]
    obtain ⟨minItems, rfl, again⟩ := Node.arrayField_of_ok site'.name takes
    rw [again]
    refine ⟨_, rfl, ?_⟩
    simp only [Field.bare_array, Field.erase_rename, same]
  next other =>
    simp only [other, ite_false]
    cases takes
    refine ⟨_, rfl, ?_⟩
    simp only [Walker.bare_atSite, Field.bare_rename, Field.bare_eq_of_erase same]

theorem Field.alike_added {name : Option String} {branch : Members} {field field' : Field} {fields : List Field}
    (same : field'.erase = field.erase) (adds : field.added name branch = .ok fields) :
    ∃ fields', field'.added name branch = .ok fields' ∧ eraseAll fields' = eraseAll fields := by
  have renamed : (field'.rename name).erase = (field.rename name).erase := by simp only [erase_rename, same]
  have kinds : (field'.rename name).isCollection = (field.rename name).isCollection := by
    unfold isCollection
    rw [← kind_erase, renamed, kind_erase]
  unfold added at adds ⊢
  rw [kinds]
  split at adds
  next whole =>
    cases adds
    simp only [whole, ite_true]
    exact ⟨_, rfl, by simp only [eraseAll, renamed]⟩
  next parts =>
    simp only [parts]
    exact eraseAll_properties renamed adds

/-- A node at another place, with references that stand for fields alike, comes to a field alike. -/
theorem Settles.alike {answer : Int → Except ChoiceError Int} {lookup lookup' : String → Field → Prop}
    {task task' : Task}
    {fields : List Field} (settles : Settles answer lookup task fields) (alike : task.Alike task')
    (targets : ∀ target ∈ task.references, ∀ field, lookup target field →
      ∃ field', lookup' target field' ∧ field'.erase = field.erase) :
    ∃ fields', Settles answer lookup' task' fields' ∧ task.Agree fields' fields := by
  induction settles generalizing task' with
  | leaf shape =>
    obtain @⟨_, _, site', _⟩ := alike
    obtain ⟨field', shape', same⟩ := Shape.alike_leaf site' shape
    exact ⟨[field'], .leaf shape', by simp only [Task.Agree, List.map_cons, List.map_nil, same]⟩
  | group shape _ makes ih =>
    obtain @⟨_, _, site', _⟩ := alike
    obtain ⟨inner', making', shape', each, making⟩ := Shape.alike_group site' shape
    obtain ⟨fields', settles', same⟩ := ih (.all each) fun target among =>
      targets target ((Task.leads_group shape).references target among)
    obtain ⟨made', makes', bare⟩ := Making.alike_make making same makes
    exact ⟨[made'], .group shape' settles' makes', by simp only [Task.Agree, List.map_cons, List.map_nil, bare]⟩
  | @followed site node other members target field shape refers known =>
    obtain @⟨_, _, site', _⟩ := alike
    obtain ⟨other', shape'⟩ := Shape.alike_reference site' shape
    obtain ⟨field', known', same⟩ := targets target (Task.mem_references shape refers) field known
    refine ⟨[field'.rename other'.name], .followed shape' refers known', ?_⟩
    simp only [Task.Agree, List.map_cons, List.map_nil, Field.bare_rename, Field.bare_eq_of_erase same]
  | @declared manner site node other members target field taken side shape refers known takes =>
    obtain @⟨_, _, site', _⟩ := alike
    obtain ⟨other', shape'⟩ := Shape.alike_reference site' shape
    obtain ⟨field', known', same⟩ := targets target (Task.mem_references shape refers) field known
    obtain ⟨taken', takes', bare⟩ := Site.alike_takeOver other' same takes
    refine ⟨[taken'], .declared side shape' refers known' takes', ?_⟩
    simp only [Task.Agree, List.map_cons, List.map_nil, bare]
  | empty shape listed taken =>
    obtain @⟨_, _, site', _⟩ := alike
    have shape' := Shape.alike_combination site' shape
    exact ⟨_, .empty shape' (Node.branches_of_ok site'.name listed) taken, rfl⟩
  | @first site node name members combinator branches branch others fields shape listed taken _ ih =>
    obtain @⟨_, _, site', _⟩ := alike
    have shape' := Shape.alike_combination site' shape
    have branches : Task.Alike (.node .definition (.named name) (.object branch))
        (.node .definition (.named site'.name) (.object branch)) := .node fun impossible => by cases impossible
    obtain ⟨fields', settles', same⟩ := ih branches
      fun target among => targets target (Task.references_branch shape listed taken List.mem_cons_self among)
    exact ⟨fields', .first shape' (Node.branches_of_ok site'.name listed) taken settles', same⟩
  | @merged manner site node name members combinator branches used fields side shape listed structural taken _ ih =>
    obtain @⟨_, _, site', _, named⟩ := alike
    have shape' := Shape.alike_combination site' shape
    have same : name = site'.name := (Shape.ofNode_combination shape).2.2.trans (named side)
    obtain ⟨fields', settles', erased⟩ := ih .merge
      fun target among => targets target ((Task.leads_merge shape listed taken).references target among)
    rw [← same] at shape'
    refine ⟨_, .merged side shape' listed structural taken settles', ?_⟩
    have erased : Field.eraseAll fields' = Field.eraseAll fields := erased
    simp only [Task.Agree, List.map_cons, List.map_nil, Field.bare_object, erased]
  | @scalar manner site node name members combinator branches branch fields side shape listed scalars alternative
      taken _ ih =>
    obtain @⟨_, _, site', _, named⟩ := alike
    have shape' := Shape.alike_combination site' shape
    have same : name = site'.name := (Shape.ofNode_combination shape).2.2.trans (named side)
    obtain ⟨fields', settles', bare⟩ := ih (.node fun _ => rfl)
      fun target among => targets target (Task.references_branch shape listed taken List.mem_cons_self among)
    rw [← same] at shape'
    exact ⟨fields', .scalar side shape' listed scalars alternative taken settles', bare⟩
  | allNil =>
    obtain _ | ⟨_ | _⟩ := alike
    exact ⟨[], .allNil, rfl⟩
  | @allCons side inner rest field others here _ ihHere ihLater =>
    obtain _ | each := alike
    obtain _ | @⟨_, inner', _, rest', ⟨named, same⟩, each⟩ := each
    have places : Task.Alike (.node side.manner inner.site inner.node) (.node side.manner inner'.site inner'.node) := by
      rw [← same]
      exact .node fun _ => named
    obtain ⟨fields', here', agree⟩ := ihHere places fun target among =>
      targets target (Task.leads_here.references target among)
    obtain ⟨others', later', erased⟩ := ihLater (.all each) fun target among =>
      targets target (Task.leads_later.references target among)
    obtain ⟨first, single, first_named⟩ := here.named
    obtain rfl := (List.cons.inj single).1
    obtain ⟨field', rfl, field_named⟩ := here'.named
    refine ⟨field' :: others', .allCons here' later', ?_⟩
    have bare : field'.bare = field.bare := (List.cons.inj agree).1
    have erased : Field.eraseAll others' = Field.eraseAll others := erased
    have names : field'.name = field.name := by rw [field_named, first_named, named]
    simp only [Task.Agree, Field.eraseAll, Field.erase_eq_of_bare names bare, erased]
  | mergeNil =>
    cases alike
    exact ⟨[], .mergeNil, rfl⟩
  | mergeInline inline _ _ ihHere ihLater =>
    cases alike
    obtain ⟨fields', here, same⟩ := ihHere (.all (Shape.alike_refl_unlisted _))
      fun target among => targets target (Task.leads_inline.references target among)
    obtain ⟨others', later, same'⟩ := ihLater .merge fun target among =>
      targets target (Task.leads_rest.references target among)
    refine ⟨fields' ++ others', .mergeInline inline here later, ?_⟩
    simp only [Task.Agree, Field.eraseAll_append] at same same' ⊢
    rw [same, same']
  | @mergeReference name branch rest target field fields others reference refers known adds _ ih =>
    cases alike
    obtain ⟨field', known', same⟩ := targets target (Task.mem_references_merge reference refers) field known
    obtain ⟨fields', adds', erased⟩ := Field.alike_added same adds
    obtain ⟨others', later, same'⟩ := ih .merge fun target among =>
      targets target (Task.leads_rest.references target among)
    refine ⟨fields' ++ others', .mergeReference reference refers known' adds' later, ?_⟩
    simp only [Task.Agree, Field.eraseAll_append] at same' ⊢
    rw [erased, same']

end FieldTree
