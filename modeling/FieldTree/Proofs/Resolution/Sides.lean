import FieldTree.Proofs.Listing.Shown
import FieldTree.Proofs.Resolution.PropertySide

/-! A node without references and combinations, on both sides. What comes of it among the properties comes of it among
the definitions too, as far as a listing shows it: what is said about being required differs only where a listing does
not look, or where the object around says the same. -/

namespace FieldTree

variable {σ : Type}

/-- Neither a reference nor a combination; and if there are `properties`, they are those of an object. -/
def Json.standsAlone : Json → Bool
  | .object members =>
    !Node.isReference members && (Node.combinator? members).isNone &&
      (Members.given? members "properties").all Json.isObject
  | _ => true

/-- Everything in the value stands alone. -/
def Json.SelfContained (value : Json) : Prop := ∀ part ∈ value.parts, part.standsAlone = true

theorem Json.SelfContained.inherited : Inherited SelfContained := inherited_forall_parts _

theorem Json.SelfContained.here {members : Members} (contained : (Json.object members).SelfContained) :
    Node.isReference members = false ∧ Node.combinator? members = none ∧
      ∀ value, members.given? "properties" = some value → ∃ properties, value = .object properties := by
  have alone := contained _ (Json.self_mem_parts _)
  simp only [standsAlone, Bool.and_eq_true, Bool.not_eq_true', Option.isNone_iff_eq_none] at alone
  obtain ⟨⟨plain, single⟩, listed⟩ := alone
  refine ⟨plain, single, fun value given => ?_⟩
  rw [given] at listed
  cases value with
  | object properties => exact ⟨properties, rfl⟩
  | _ => cases listed

theorem Json.SelfContained.isPlain {value : Json} (contained : value.SelfContained) : value.isPlain = true := by
  cases value with
  | object members => simp only [Json.isPlain, contained.here.1, Bool.not_false]
  | _ => rfl

theorem Node.not_gives_of_combinator? {node : Members} (none : combinator? node = none) (combinator : Combinator) :
    node.gives combinator.keyword = false := by
  have never := List.find?_eq_none.mp none combinator (by cases combinator <;> decide)
  simpa only [Bool.not_eq_true] using never

theorem Json.SelfContained.choiceless {value : Json} (contained : value.SelfContained) : value.Choiceless := by
  intro part inside
  cases part with
  | object members =>
    have none := Node.not_gives_of_combinator? (inherited contained inside).here.2.1
    simp only [offersChoice, none .anyOf, none .oneOf, Bool.or_self]
  | _ => rfl

/-- What a field at this place says about being required: nothing if it is a scalar, all that the place says if it is a
collection, and either of these if it is an object. -/
def Site.Marks (site : Site) : Field → Prop
  | .scalar _ required _ => required = none
  | .array _ required .. => required = some (requiredCollection site.inObject site.required)
  | .object _ required .. => required = site.required ∨ required = none
  | .map _ required _ => required = some (requiredCollection site.inObject site.required)

/-- Fields that are shown alike, at one place, are listed as required alike if the object around lists the name of the
place when the place says so. -/
theorem Listing.isRequired_of_marks {site : Site} {field field' : Field} {requiredNames : List String}
    (marks : site.Marks field) (marks' : site.Marks field') (shown : field'.shown = field.shown)
    (named : field.name = site.name) (listed : site.required = some true → site.name.any requiredNames.contains) :
    isRequired field' requiredNames = isRequired field requiredNames := by
  have named' : field'.name = site.name := by rw [← Field.name_shown, shown, Field.name_shown, named]
  have either : ∀ {required}, required = site.required ∨ required = none →
      (required == some true || site.name.any requiredNames.contains) = site.name.any requiredNames.contains := by
    intro required told
    by_cases here : site.required = some true
    · rw [listed here, Bool.or_true]
    · have unsaid : required ≠ some true := by
        rcases told with rfl | rfl
        · exact here
        · simp
      rw [beq_false_of_ne unsaid, Bool.false_or]
  simp only [isRequired, named, named']
  cases field <;> cases field' <;>
    simp only [Field.shown, Field.scalar.injEq, Field.array.injEq, Field.object.injEq, Field.map.injEq,
      reduceCtorEq] at shown
  · simp only [Site.Marks] at marks marks'
    simp only [Field.required, marks, marks']
  · simp only [Site.Marks] at marks marks'
    simp only [Field.required, marks, marks']
  · simp only [Field.required, either marks, either marks']
  · simp only [Site.Marks] at marks marks'
    simp only [Field.required, marks, marks']

namespace Shape
open Node

/-- The shape of a node among the properties, and its shape at another place among the definitions. -/
inductive Across (members : Members) (site site' : Site) : Shape → Shape → Prop
  | wrong {error shape} : Across members site site' (.wrong error) shape
  | leaf (type : Scalar) :
    Across members site site' (.leaf (.scalar site.name none type)) (.leaf (.scalar site'.name none type))
  | array {items} : Across members site site' (.group (element site members items) (.array site members))
    (.group (element site' members items) (.array site' members))
  | listed {properties required required'} (told : required = site.required ∨ required = none)
    (told' : required' = site'.required ∨ required' = none) :
    Across members site site'
      (.group (listed site.name (requiredNames members) properties)
        (.object site.name required (requiredNames members)))
      (.group (listed site'.name (requiredNames members) properties)
        (.object site'.name required' (requiredNames members)))
  | map {values} : Across members site site' (.group (value .property site values) (.map site))
    (.group (value .definition site' values) (.map site'))
  | own : Across members site site' (.group (own members) (.object site.name none []))
    (.group (own members) (.object site'.name none []))

/-- A group among the properties is one among the definitions, of the same nodes. -/
theorem Across.group {members : Members} {site site' : Site} {inner : List Inner} {making : Making} {shape : Shape}
    (across : Across members site site' (.group inner making) shape) :
    ∃ inner' making', shape = .group inner' making' ∧ List.Forall₂ Inner.Alike inner inner' := by
  cases across with
  | array => exact ⟨_, _, rfl, .cons ⟨rfl, rfl⟩ .nil⟩
  | listed =>
    refine ⟨_, _, rfl, ?_⟩
    unfold Shape.listed
    rw [List.forall₂_map_left_iff, List.forall₂_map_right_iff]
    exact List.forall₂_same.mpr fun _ _ => ⟨rfl, rfl⟩
  | map => exact ⟨_, _, rfl, .cons ⟨rfl, rfl⟩ .nil⟩
  | own => exact ⟨_, _, rfl, alike_refl_unlisted _⟩

section
variable {members : Members} (site site' : Site)

theorem across_ofResult {result result' : Except SemanticError Field}
    (scalar : ∀ made, result = .ok made → ∃ type, made = .scalar site.name none type)
    (again : ∀ made, result = .ok made → result' = .ok (made.rename site'.name)) :
    Across members site site' (ofResult result) (ofResult result') := by
  cases result with
  | ok made =>
    rw [again made rfl]
    obtain ⟨type, rfl⟩ := scalar made rfl
    exact .leaf type
  | error error => exact .wrong

theorem across_ofTyped (plain : isReference members = false) (single : combinator? members = none) :
    Across members site site' (ofTyped .property site members) (ofTyped .definition site' members) := by
  unfold ofTyped
  split
  next type _ =>
    cases type with
    | integer => exact .leaf .integer
    | number =>
      exact across_ofResult site site' (fun made ok => numberField_scalar ok) fun made ok =>
        numberField_of_ok site'.name ok
    | array =>
      unfold ofType
      dsimp only
      split
      · exact .array
      · exact .wrong
    | object =>
      unfold ofType ofObject
      simp only [single, plain, Bool.false_eq_true, ite_false]
      split
      · exact .listed (.inl rfl) (.inl rfl)
      · exact .map
      · exact .own
    | boolean => exact .leaf .boolean
    | text =>
      exact across_ofResult site site' (fun made ok => textField_scalar ok) fun made ok => textField_of_ok site'.name ok
  · exact .wrong

theorem across_ofNode (contained : (Json.object members).SelfContained) :
    Across members site site' (ofNode .property site (.object members))
      (ofNode .definition site' (.object members)) := by
  obtain ⟨plain, single, listed⟩ := contained.here
  simp only [ofNode, plain, Bool.false_eq_true, ite_false]
  split
  · exact across_ofTyped site site' plain single
  · simp only [single]
    split
    next gives =>
      obtain ⟨value, given⟩ := Option.isSome_iff_exists.mp gives
      obtain ⟨properties, rfl⟩ := listed value given
      simp only [ofObject, single, given]
      exact .listed (.inl rfl) (.inr rfl)
    next => exact .wrong

end
end Shape

/-- Of two lists of inner nodes come fields that are shown alike. -/
inductive Inner.ShownAlike : List Inner → List Inner → List Field → List Field → Prop
  | nil : ShownAlike [] [] [] []
  | cons {one one' field field' inner inner' fields fields'} (named : field.name = one.site.name)
    (marks : one.site.Marks field) (marks' : one'.site.Marks field') (shown : field'.shown = field.shown)
    (rest : ShownAlike inner inner' fields fields') :
    ShownAlike (one :: inner) (one' :: inner') (field :: fields) (field' :: fields')

namespace Inner.ShownAlike

variable {inner inner' : List Inner} {fields fields' : List Field}

theorem names (each : ShownAlike inner inner' fields fields') :
    fields.map Field.name = inner.map fun one => one.site.name := by
  induction each with
  | nil => rfl
  | cons named _ _ _ _ ih => simp only [List.map_cons, named, ih]

theorem same_names (each : ShownAlike inner inner' fields fields') :
    fields'.map Field.name = fields.map Field.name := by
  induction each with
  | nil => rfl
  | cons _ _ _ shown _ ih =>
    rw [List.map_cons, List.map_cons, ih, ← Field.name_shown, shown, Field.name_shown]

theorem shownAll {requiredNames : List String} (each : ShownAlike inner inner' fields fields')
    (sites : List.Forall₂ (fun one one' => one.site = one'.site) inner inner')
    (listed : ∀ one ∈ inner, one.site.required = some true → one.site.name.any requiredNames.contains) :
    Field.shownAll requiredNames fields' = Field.shownAll requiredNames fields := by
  induction each with
  | nil => rfl
  | cons named marks marks' shown _ ih =>
    obtain _ | ⟨same, sites⟩ := sites
    obtain ⟨here, later⟩ := List.forall_mem_cons.mp listed
    rw [← same] at marks'
    simp only [Field.shownAll, shown, Listing.isRequired_of_marks marks marks' shown named here, ih sites later]

end Inner.ShownAlike

theorem Shape.forall₂_listed_site (name name' : Option String) (requiredNames : List String) (properties : Members) :
    List.Forall₂ (fun one one' => Inner.site one = Inner.site one') (listed name requiredNames properties)
      (listed name' requiredNames properties) := by
  unfold listed
  rw [List.forall₂_map_left_iff, List.forall₂_map_right_iff]
  exact List.forall₂_same.mpr fun _ _ => rfl

/-- What is made of fields that are shown alike is shown alike. -/
theorem Making.crosses {members : Members} {site site' : Site} {inner inner' : List Inner} {making making' : Making}
    {fields fields' : List Field} {made : Field}
    (across : Shape.Across members site site' (.group inner making) (.group inner' making'))
    (each : Inner.ShownAlike inner inner' fields fields') (makes : making.make fields = .ok (some made)) :
    ∃ made', making'.make fields' = .ok (some made') ∧ site.Marks made ∧ site'.Marks made' ∧
      made'.shown = made.shown.rename site'.name := by
  cases across with
  | array =>
    obtain _ | ⟨_, _, _, shown, _⟩ := each
    obtain ⟨minItems, unique, rfl, again⟩ := make_array makes
    refine ⟨_, again site' _ _, rfl, rfl, ?_⟩
    simp only [Field.shown, shown, Field.rename]
  | listed told told' =>
    cases makes
    simp only [make, each.same_names]
    refine ⟨_, rfl, told, told', ?_⟩
    simp only [Field.shown, Field.rename]
    rw [each.shownAll (Shape.forall₂_listed_site _ _ _ _)]
    intro one among required
    -- A name that the object lists is kept among its required names, for there is a field of that name.
    have there : one.site.name ∈ fields.map Field.name := by
      rw [each.names]
      exact List.mem_map_of_mem among
    obtain ⟨entry, _, rfl⟩ := List.mem_map.mp among
    have required : (Node.requiredNames members).contains entry.1 = true := Option.some.inj required
    simp only [Option.any_some, List.contains_iff_mem, List.mem_filter] at required there ⊢
    exact ⟨required, there⟩
  | map =>
    obtain _ | ⟨_, _, _, shown, _⟩ := each
    cases makes
    refine ⟨_, rfl, rfl, rfl, ?_⟩
    simp only [Field.shown, shown, Field.rename]
  | own =>
    cases makes
    simp only [make, each.same_names]
    refine ⟨_, rfl, .inr rfl, .inr rfl, ?_⟩
    simp only [Field.shown, Field.rename]
    rw [each.shownAll (List.forall₂_same.mpr fun _ _ => rfl)]
    intro one among required
    obtain ⟨entry, _, rfl⟩ := List.mem_map.mp among
    cases required

/-- What comes of the task among the properties comes of it among the definitions, in any other resolution, without
changing its state. -/
def Task.Crosses (σ : Type) : Task → List Field → Prop
  | .node .property site value, fields => value.SelfContained → ∃ field, fields = [field] ∧ site.Marks field ∧
    ∀ (context : Context σ) (site' : Site) (state : State σ), ∃ field',
      Yields context (.node .definition site' value) state [field'] state ∧ site'.Marks field' ∧
        field'.shown = field.shown.rename site'.name
  | .all .property inner, fields => (∀ one ∈ inner, one.node.SelfContained) →
    ∀ (context : Context σ) (inner' : List Inner) (state : State σ), List.Forall₂ Inner.Alike inner inner' →
      ∃ fields', Yields context (.all .definition inner') state fields' state ∧
        Inner.ShownAlike inner inner' fields fields'
  | _, _ => True

namespace Task.Crosses

variable {site : Site} {node : Json} {field : Field} {fields others : List Field}

theorem leaf (shape : Shape.ofNode .property site node = .leaf field) :
    Crosses σ (.node .property site node) [field] := by
  intro contained
  obtain ⟨members, _, rfl, _⟩ := Shape.ofNode_object shape (by simp)
  obtain ⟨type, rfl⟩ := Shape.ofNode_leaf shape
  refine ⟨_, rfl, rfl, fun context site' state => ?_⟩
  have across := Shape.across_ofNode site site' contained
  rw [shape] at across
  generalize told : Shape.ofNode .definition site' (.object members) = shape' at across
  cases across with
  | leaf => exact ⟨_, .leaf told, rfl, rfl⟩

theorem group {inner : List Inner} {making : Making} (each : Crosses σ (.all .property inner) fields)
    (shape : Shape.ofNode .property site node = .group inner making) (makes : making.make fields = .ok (some field))
    (context : Context σ) (state : State σ) : Crosses σ (.node .property site node) [field] := by
  intro contained
  obtain ⟨members, _, rfl, _⟩ := Shape.ofNode_object shape (by simp)
  have crossing : ∀ (context : Context σ) (site' : Site) (state : State σ), ∃ field',
      Yields context (.node .definition site' (.object members)) state [field'] state ∧ site.Marks field ∧
        site'.Marks field' ∧ field'.shown = field.shown.rename site'.name := by
    intro context site' state
    have across := Shape.across_ofNode site site' contained
    rw [shape] at across
    obtain ⟨inner', making', told, alike⟩ := across.group
    obtain ⟨fields', walked, shown⟩ :=
      each (fun one among => Json.SelfContained.inherited contained ((Shape.ofNode_group shape).1 one among)) context inner' state alike
    rw [told] at across
    obtain ⟨field', makes', marks, marks', same⟩ := Making.crosses across shown makes
    exact ⟨field', .group told walked makes', marks, marks', same⟩
  obtain ⟨_, _, marks, _⟩ := crossing context site state
  refine ⟨field, rfl, marks, fun context site' state => ?_⟩
  obtain ⟨field', walked, _, marks', same⟩ := crossing context site' state
  exact ⟨field', walked, marks', same⟩

theorem cons {one : Inner} {rest : List Inner} (here : Crosses σ (.node .property one.site one.node) fields)
    (later : Crosses σ (.all .property rest) others) (named : ∀ field ∈ fields, field.name = one.site.name) :
    Crosses σ (.all .property (one :: rest)) (fields ++ others) := by
  intro contained context inner' state alike
  obtain ⟨first, contained⟩ := List.forall_mem_cons.mp contained
  obtain ⟨field, rfl, marks, crossing⟩ := here first
  obtain _ | @⟨_, one', _, rest', ⟨same_name, same_node⟩, alike⟩ := alike
  obtain ⟨field', walked, marks', same⟩ := crossing context one'.site state
  obtain ⟨others', walked_later, shown⟩ := later contained context rest' state alike
  have named := named field List.mem_cons_self
  rw [same_node] at walked
  rw [← same_name, ← named, ← Field.name_shown, Field.rename_name] at same
  have both : Yields context (.all .definition (one' :: rest')) state ([field'] ++ others') state :=
    .allCons walked walked_later
  exact ⟨field' :: others', both, .cons named marks marks' same shown⟩

end Task.Crosses

/-- Nothing else than leaves and groups comes of a node that is self-contained. -/
theorem Yields.crosses {context : Context σ} {task : Task} {before after : State σ} {fields : List Field}
    (yields : Yields context task before fields after) : task.Crosses σ fields := by
  have combined : ∀ {site node name members combinator},
      Shape.ofNode .property site node = .combination name members combinator → ¬node.SelfContained := by
    intro site node name members combinator shape contained
    obtain ⟨rfl, gives, _⟩ := Shape.ofNode_combination shape
    rw [Node.not_gives_of_combinator? contained.here.2.1] at gives
    cases gives
  induction yields with
  | @leaf manner _ _ _ _ shape =>
    cases manner with
    | property => exact .leaf shape
    | _ => trivial
  | @group manner _ _ _ _ _ _ before _ shape _ makes ih =>
    cases manner with
    | property => exact ih.group shape makes context before
    | _ => trivial
  | @declared manner _ _ _ _ _ _ _ _ side shape =>
    cases manner with
    | property =>
      intro contained
      obtain ⟨rfl, reference, _⟩ := Shape.ofNode_reference shape
      rw [contained.here.1] at reference
      cases reference
    | _ => trivial
  | @merged manner _ _ _ _ _ _ _ _ _ _ _ _ shape =>
    cases manner with
    | property => exact fun contained => absurd contained (combined shape)
    | _ => trivial
  | @scalar manner _ _ _ _ _ _ _ _ _ _ _ _ shape =>
    cases manner with
    | property => exact fun contained => absurd contained (combined shape)
    | _ => trivial
  | @allNil side =>
    cases side with
    | definition => trivial
    | property =>
      intro _ _ inner' state alike
      cases alike
      exact ⟨[], .allNil, .nil⟩
  | @allCons side _ _ _ _ _ _ _ here _ ihHere ihLater =>
    cases side with
    | definition => trivial
    | property => exact ihHere.cons ihLater here.named
  | _ => trivial

/-- What comes of a self-contained node among the properties comes of it at any place among the definitions, wherever it
stands and whatever has been resolved before. -/
theorem Yields.definition_of_property {context : Context σ} {site : Site} {node : Json} {before after : State σ}
    {field : Field} (yields : Yields context (.node .property site node) before [field] after)
    (contained : node.SelfContained) (context' : Context σ) (site' : Site) (state : State σ) :
    ∃ field', Yields context' (.node .definition site' node) state [field'] state ∧
      site.Marks field ∧ site'.Marks field' ∧ field'.shown = field.shown.rename site'.name := by
  obtain ⟨_, same, marks, crossing⟩ := yields.crosses contained
  obtain rfl := (List.cons.inj same).1
  obtain ⟨field', walked, marks', shown⟩ := crossing context' site' state
  exact ⟨field', walked, marks, marks', shown⟩

end FieldTree
