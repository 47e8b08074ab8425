import FieldTree.Proofs.Resolution.Visits

/-! Which collections inside an object are required: all of them, except that a property that refers to a definition, on
the side of the definitions, takes over what the definition says. -/

namespace FieldTree

variable {σ : Type}

/-- A node that tells its type or refers to a definition, without a combinator. -/
def Json.isDirect : Json → Bool
  | .object members => (Node.hasType members || Node.isReference members) && (Node.combinator? members).isNone
  | _ => false

/-- On the side of the definitions the node takes over the field of the target. -/
def Inner.Borrows (side : Side) (inner : Inner) (target : String) : Prop :=
  side = .definition ∧ ∃ site members, Shape.ofNode .definition inner.site inner.node = .reference site members ∧
    Node.target members = .ok target

namespace Shape
open Node

/-- Nothing that the place says is lost on a direct node. -/
theorem ofNode_form_of_direct {manner : Manner} {members : Members} (direct : (Json.object members).isDirect = true)
    (site : Site) : Form manner.side site members (ofNode manner site (.object members)) := by
  simp only [Json.isDirect, Bool.and_eq_true, Bool.or_eq_true] at direct
  cases manner with
  | definition =>
    simp only [ofNode]
    split
    · exact ofTyped_form .definition site members
    next untyped =>
      have reference := direct.1.resolve_left untyped
      simp only [reference, ite_true]
      exact .reference reference
  | property =>
    simp only [ofNode]
    split
    next reference => exact .reference reference
    next other =>
      have typed := direct.1.resolve_right other
      simp only [typed, ite_true]
      exact ofTyped_form .property site members
  | typed => exact ofTyped_form .property site members

theorem ofNode_direct {manner : Manner} {site : Site} {node : Json} (direct : node.isDirect = true) {shape : Shape}
    (told : ofNode manner site node = shape) :
    (∃ members, node = .object members ∧ Form manner.side site members shape) ∧
      ∀ name members combinator, shape ≠ .combination name members combinator := by
  cases node with
  | object members =>
    refine ⟨⟨members, rfl, told ▸ ofNode_form_of_direct direct site⟩, fun name others combinator same => ?_⟩
    obtain ⟨whole, gives, _⟩ := ofNode_combination (told.trans same)
    cases whole
    simp only [Json.isDirect, Bool.and_eq_true, Option.isNone_iff_eq_none] at direct
    have never := List.find?_eq_none.mp direct.2 combinator (by cases combinator <;> decide)
    exact never gives
  | _ => cases direct

end Shape

theorem requiredCollection_inside {inObject : Option Bool} (inside : inObject = some true) (required : Option Bool) :
    requiredCollection inObject required = true := by
  rw [requiredCollection, inside, beq_self_eq_true, Bool.true_or]

theorem Making.required_of_make {making : Making} {fields : List Field} {made : Field} {side : Side} {site : Site}
    {members : Members} {inner : List Inner} (form : Shape.Form side site members (.group inner making))
    (makes : making.make fields = .ok (some made)) (inside : site.inObject = some true)
    (collection : made.isCollection = true) :
    made.required = some true := by
  cases form with
  | array =>
    cases fields with
    | nil => cases makes
    | cons element rest =>
      obtain ⟨minItems, unique, rfl, _⟩ := Making.make_array makes
      exact congrArg some (requiredCollection_inside inside site.required)
  | listed =>
    cases makes
    cases collection
  | map =>
    cases fields with
    | nil => cases makes
    | cons value rest =>
      cases makes
      exact congrArg some (requiredCollection_inside inside site.required)
  | own =>
    cases makes
    cases collection

theorem Site.required_of_takeOver {site : Site} {node : Members} {field taken : Field}
    (takes : site.takeOver node field = .ok taken)
    (inside : site.inObject = some true) (collection : taken.isCollection = true) : taken.required = some true := by
  unfold Site.takeOver at takes
  split at takes
  · obtain ⟨minItems, rfl, _⟩ := Node.arrayField_of_ok none takes
    exact congrArg some (requiredCollection_inside inside site.required)
  · cases takes
    unfold Walker.atSite at collection ⊢
    split at collection
    next scalar =>
      rw [Kind.isScalar_eq_false collection] at scalar
      cases scalar
    next other =>
      rw [Field.isCollection, Field.kind_withRequired] at collection
      rw [ite_cond_eq_false _ _ (eq_false other), Field.required_withRequired _ _ collection,
        requiredCollection_inside inside]

theorem definition_of_manner {side : Side} (same : side.manner = .definition) : side = .definition := by
  cases side with
  | definition => rfl
  | property => cases same

/-- A collection inside an object is required, unless it is borrowed from a definition that is not. -/
theorem Yields.required_iff {context : Context σ} {side : Side} {inner : Inner} {before after : State σ} {child : Field}
    (yields : Yields context (.node side.manner inner.site inner.node) before [child] after)
    (inside : inner.site.inObject = some true) (direct : inner.node.isDirect = true)
    (collection : child.isCollection = true) :
    child.required = some true ↔
      ∀ target, inner.Borrows side target → (after.cache.get? target).map Field.required = some (some true) := by
  have lent : ∀ {site members target}, side = .definition →
      Shape.ofNode .definition inner.site inner.node = .reference site members → Node.target members = .ok target →
        ((∀ other, inner.Borrows side other → (after.cache.get? other).map Field.required = some (some true)) ↔
          (after.cache.get? target).map Field.required = some (some true)) := by
    intro site members target here shape refers
    constructor
    · exact fun all => all target ⟨here, site, members, shape, refers⟩
    · rintro required other ⟨_, _, _, shape', refers'⟩
      rw [shape] at shape'
      cases shape'
      rw [refers] at refers'
      cases refers'
      exact required
  have unlent : (∀ target, ¬inner.Borrows side target) → child.required = some true → (child.required = some true ↔
      ∀ target, inner.Borrows side target → (after.cache.get? target).map Field.required = some (some true)) :=
    fun never required => ⟨fun _ target borrows => absurd borrows (never target), fun _ => required⟩
  generalize same : [child] = fields at yields
  generalize walk : side.manner = manner at yields
  cases yields with
  | leaf shape =>
    obtain ⟨type, rfl⟩ := Shape.ofNode_leaf shape
    cases same
    cases type <;> cases collection
  | group shape each makes =>
    cases same
    obtain ⟨⟨members, whole, form⟩, _⟩ := Shape.ofNode_direct direct shape
    refine unlent ?_ (Making.required_of_make form makes inside collection)
    rintro target ⟨rfl, site, other, shape', _⟩
    cases walk
    cases shape.symm.trans shape'
  | dropped => cases same
  | @reused _ _ other members target field before shape refers known =>
    have here := definition_of_manner walk
    cases same
    rw [lent here shape refers]
    change _ ↔ (before.cache.get? target).map Field.required = some (some true)
    rw [known, Option.map_some, Field.required_rename, Option.some_inj]
  | unexpanded => cases same
  | @extracted _ _ other members target body fields before middle shape refers unknown free given walked =>
    have here := definition_of_manner walk
    obtain ⟨made, rfl, rfl⟩ := List.map_eq_singleton_iff.mp same.symm
    rw [lent here shape refers]
    change _ ↔ ((middle.keep target [made]).cache.get? target).map Field.required = some (some true)
    rw [State.get?_keep_self, Option.map_some, Field.required_rename, Option.some_inj]
  | declared sided shape refers known takes =>
    cases same
    obtain ⟨⟨members, whole, form⟩, _⟩ := Shape.ofNode_direct direct shape
    refine unlent ?_ ?_
    · rintro target ⟨rfl, _⟩
      cases walk
      cases sided
    · cases form with
      | reference => exact Site.required_of_takeOver takes inside collection
  | empty shape => exact absurd rfl ((Shape.ofNode_direct direct shape).2 _ _ _)
  | first shape => exact absurd rfl ((Shape.ofNode_direct direct shape).2 _ _ _)
  | merged _ shape => exact absurd rfl ((Shape.ofNode_direct direct shape).2 _ _ _)
  | scalar _ shape => exact absurd rfl ((Shape.ofNode_direct direct shape).2 _ _ _)

theorem Yields.child_of_all {context : Context σ} {visited : Task → State σ → Prop} {side : Side} {inner : List Inner}
    {before after : State σ} {fields : List Field} (yields : Yields context (.all side inner) before fields after)
    (closed : ∀ task before task' before', visited task before → Starts context task before task' before' →
      visited task' before')
    (begun : visited (.all side inner) before) :
    ∀ child ∈ fields, ∃ one ∈ inner, ∃ before' after', visited (.node side.manner one.site one.node) before' ∧
      Yields context (.node side.manner one.site one.node) before' [child] after' := by
  induction inner generalizing before fields with
  | nil =>
    cases yields
    exact List.forall_mem_nil _
  | cons one rest ih =>
    cases yields with
    | allCons here later =>
      obtain ⟨something, rfl, _⟩ := here.walks.child
      intro child among
      rcases List.mem_append.mp among with first | further
      · obtain rfl := Option.mem_toList.mp first
        exact ⟨one, List.mem_cons_self, _, _, closed _ _ _ _ begun .here, here⟩
      · obtain ⟨other, inside, walked⟩ := ih later (closed _ _ _ _ begun (.later here)) child further
        exact ⟨other, List.mem_cons_of_mem _ inside, walked⟩

/-- Every child was made for one of the inner nodes. It is required if it is a collection made for a direct node, and
not borrowed from a definition that is not required. -/
def Context.Requires (context : Context σ) (visited : Task → State σ → Prop) (side : Side) (inner : List Inner)
    (children : List Field) : Prop :=
  ∀ child ∈ children, ∃ one ∈ inner, ∃ before after, visited (.node side.manner one.site one.node) before ∧
    Yields context (.node side.manner one.site one.node) before [child] after ∧
    (one.node.isDirect = true → child.isCollection = true → (child.required = some true ↔
      ∀ target, one.Borrows side target → (after.cache.get? target).map Field.required = some (some true)))

namespace Document

/-- All objects of a schema, at any depth, were built by tasks of the resolution; and where such a task builds an object
from a node that lists properties, the direct collections in it are required, but for those that are borrowed. -/
theorem required_collections {document : Document} {selector : Selector σ} {start : σ} {bound : Nat} {schema : Schema}
    (resolved : (document.resolveWithin bound selector start).result = .ok schema) :
    ∃ root, document.root = .ok root ∧
      (∀ field ∈ schema.properties, field.Traced (context root selector) (Visits root selector start)) ∧
      (∀ name field, Entries.get? schema.definitions name = some field →
        field.Traced (context root selector) (Visits root selector start)) ∧
      ∀ {manner site node name requiredNames properties making before fields after},
        Visits root selector start (.node manner site node) before →
        Shape.ofNode manner site node = .group (Shape.listed name requiredNames properties) making →
        Yields (context root selector)
          (.all manner.side (Shape.listed name requiredNames properties)) before fields after →
        (context root selector).Requires (Visits root selector start) manner.side
          (Shape.listed name requiredNames properties) fields := by
  obtain ⟨root, middle, properties, after, rooted, passes, rfl⟩ := passes_of_resolved resolved
  obtain ⟨cached, traced⟩ := passes.traced
  refine ⟨root, rooted, traced, cached, ?_⟩
  intro manner site node name requiredNames listed making before fields last visited shape each child among
  obtain ⟨one, inside, before', after', begun, walked⟩ :=
    each.child_of_all Visits.closed (.inner visited (.inside shape)) child among
  refine ⟨one, inside, before', after', begun, walked, fun direct collection => ?_⟩
  obtain ⟨entry, _, rfl⟩ := List.mem_map.mp inside
  exact walked.required_iff rfl direct collection

/-- A page has words, a map that is defined before it, and lines of its own. -/
def page : Members := [
  ("words", .object [("$ref", .string "#/definitions/Words")]),
  ("lines", .object [("type", .string "array"), ("items", .object [("type", .string "string")])])]

def book : Members := [("definitions", .object [
  ("Words", .object [("type", .string "object"), ("additionalProperties", .object [("type", .string "string")])]),
  ("Page", .object [("type", .string "object"), ("properties", .object page)])])]

theorem required_collections_book : ∃ schema words lines,
    ((Document.value (.object book)).resolveWithin 20 Selector.first ()).result = .ok schema ∧
      (context book Selector.first).Requires (Visits book Selector.first ()) .definition
        (Shape.listed (some "Page") [] page) [words, lines] := by
  obtain ⟨schema, resolved⟩ : ∃ schema,
      ((Document.value (.object book)).resolveWithin 20 Selector.first ()).result = .ok schema :=
    exists_of_toBool (by decide +kernel)
  obtain ⟨root, rooted, _, _, requires⟩ := required_collections resolved
  cases rooted
  have sound : Walker.Sound (context book Selector.first) (walker (context book Selector.first) 10) :=
    Walker.sound_walker _ 10
  have earlier : DefinesAll (context book Selector.first) (book.declarations.take 1) (State.fresh ()) _ :=
    definesAll_of_ends sound rfl
  have visited := Visits.definition rfl earlier (.plain rfl)
  exact ⟨schema, _, _, resolved, requires visited rfl (sound.all rfl)⟩

/-- The words are not required, though a property refers to them in an object; the lines are. -/
theorem words_not_required : ∃ schema fields words lines,
    ((Document.value (.object book)).resolveWithin 20 Selector.first ()).result = .ok schema ∧
    Entries.get? schema.definitions "Page" = some (.object (some "Page") none fields []) ∧ fields = [words, lines] ∧
    words.name = some "words" ∧ words.isCollection = true ∧ words.required = some false ∧
    lines.name = some "lines" ∧ lines.isCollection = true ∧ lines.required = some true :=
  ⟨_, _, _, _, rfl, rfl, rfl, rfl, rfl, rfl, rfl, rfl, rfl⟩

end Document
end FieldTree
