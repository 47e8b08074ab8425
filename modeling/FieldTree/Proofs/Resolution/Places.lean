import FieldTree.Proofs.Resolution.Settles

/-! What a place among the definitions decides about the field that stands there, if its name is given: whether the
field is required and, as a map hands it on, whether its values are. Nothing else depends on the place. -/

namespace FieldTree

/-- What the field says about being required, followed by what the values of a map say. -/
def Field.flags : Field → List (Option Bool)
  | .scalar _ required _ => [required]
  | .array _ required _ _ _ => [required]
  | .object _ required _ _ => [required]
  | .map _ required value => required :: flags value

/-- The flags that the place of a node decides. Where a reference is met, the rest is up to its target. -/
def Json.flagsAt : Nat → Json → Site → List (Option Bool)
  | 0, _, _ => []
  | rounds + 1, node, site =>
    match Shape.ofNode .definition site node with
    | .group _ (.array place _) => [some (requiredCollection place.inObject place.required)]
    | .group _ (.object _ required _) => [required]
    | .group inner (.map place) =>
      some (requiredCollection place.inObject place.required) ::
        (inner.head?.map fun value => flagsAt rounds value.node value.site).getD []
    | _ => []

namespace Shape
open Node

/-- The shapes of one node at two places of one name. -/
inductive Twin (node : Members) : Shape → Shape → Prop
  | same {shape} : Twin node shape shape
  | reference {site site'} (named : site.name = site'.name) : Twin node (.reference site node) (.reference site' node)
  | array {inner site site'} (named : site.name = site'.name) :
    Twin node (.group inner (.array site node)) (.group inner (.array site' node))
  | object {inner name required required' requiredNames} :
    Twin node (.group inner (.object name required requiredNames)) (.group inner (.object name required' requiredNames))
  | map {site site' values} (named : site.name = site'.name)
    (given : node.given? "additionalProperties" = some (.object values)) :
    Twin node (.group (value .definition site values) (.map site))
      (.group (value .definition site' values) (.map site'))

section
variable {site site' : Site} (named : site.name = site'.name) (node : Members)
include named

theorem twin_ofObject : Twin node (ofObject .definition site node) (ofObject .definition site' node) := by
  unfold ofObject
  rw [named]
  split
  · exact .same
  · split
    · exact .object
    next given _ => exact .map named given
    · split
      · exact .reference named
      · exact .same

theorem twin_ofTyped : Twin node (ofTyped .definition site node) (ofTyped .definition site' node) := by
  unfold ofTyped
  rw [named]
  split
  next type _ =>
    cases type with
    | array =>
      unfold ofType element
      rw [named]
      dsimp only
      split
      · exact .array named
      · exact .same
    | object => exact twin_ofObject named node
    | _ =>
      unfold ofType
      rw [named]
      exact .same
  · exact .same

theorem twin_ofNode : Twin node (ofNode .definition site (.object node)) (ofNode .definition site' (.object node)) := by
  simp only [ofNode]
  split
  · exact twin_ofTyped named node
  · rw [named]
    split
    · exact .reference named
    · exact .same

end
end Shape

theorem Settles.single {answer : Int → Except ChoiceError Int} {lookup : String → Field → Prop} {side : Side}
    {inner : Inner}
    {fields : List Field} (settles : Settles answer lookup (.all side [inner]) fields) :
    ∃ field, fields = [field] ∧ Settles answer lookup (.node side.manner inner.site inner.node) [field] := by
  cases settles with
  | allCons here later =>
    cases later
    exact ⟨_, rfl, here⟩

theorem Json.length_flagsAt (rounds : Nat) (node : Json) {site site' : Site} (named : site.name = site'.name) :
    (node.flagsAt rounds site).length = (node.flagsAt rounds site').length := by
  induction rounds generalizing node site site' with
  | zero => rfl
  | succ rounds ih =>
    cases node with
    | object members =>
      have twin := Shape.twin_ofNode named members
      simp only [flagsAt]
      generalize Shape.ofNode .definition site (.object members) = shape at twin
      generalize Shape.ofNode .definition site' (.object members) = shape' at twin
      cases twin with
      | map =>
        simp only [Shape.value, List.head?_cons, Option.map_some, Option.getD_some, List.length_cons]
        exact congrArg (· + 1) (ih _ rfl)
      | _ => rfl
    | _ => rfl

section
variable {answer : Int → Except ChoiceError Int} {lookup lookup' : String → Field → Prop} {site site' : Site}
  {node : Json}
  {field other : Field}

/-- What the place decides is what the field has. -/
theorem Settles.flagsAt_prefix (settles : Settles answer lookup (.node .definition site node) [field]) (rounds : Nat) :
    node.flagsAt rounds site <+: field.flags := by
  induction rounds generalizing site node field with
  | zero => exact List.nil_prefix
  | succ rounds ih =>
    generalize told : Shape.ofNode .definition site node = shape
    have comes := settles.comes told
    simp only [Json.flagsAt, told]
    cases shape with
    | group inner making =>
      obtain ⟨each, made, all, makes, same⟩ := comes
      obtain rfl := (List.cons.inj same).1
      obtain ⟨members, _, _, _, form⟩ := Shape.ofNode_object told (by simp)
      cases form with
      | array =>
        cases each with
        | nil => cases makes
        | cons element rest =>
          obtain ⟨minItems, unique, rfl, _⟩ := Making.make_array makes
          exact List.prefix_rfl
      | listed =>
        cases makes
        exact List.prefix_rfl
      | map =>
        obtain ⟨value, rfl, here⟩ := all.single
        cases makes
        exact List.cons_prefix_cons.mpr ⟨rfl, ih here⟩
      | own =>
        cases makes
        exact List.prefix_rfl
    | _ => exact List.nil_prefix

/-- A node at two places of one name that decide alike, with references that stand for the same fields, comes to one
field. Only the values of a map are met at places that differ, so the induction goes down the maps. -/
theorem Settles.eq_of_flagsAt (first : Settles answer lookup (.node .definition site node) [field])
    (second : Settles answer lookup' (.node .definition site' node) [other]) (named : site.name = site'.name)
    (agree : ∀ target ∈ node.references, ∀ field other, lookup target field → lookup' target other → field = other)
    {rounds : Nat} (deep : node.depth ≤ rounds) (same : node.flagsAt rounds site = node.flagsAt rounds site') :
    field = other := by
  induction rounds generalizing node site site' field other with
  | zero =>
    obtain ⟨members, _, rfl, _⟩ := Shape.ofNode_object rfl (by rintro error told; exact first.comes told)
    cases deep
  | succ rounds ih =>
  generalize told : Shape.ofNode .definition site node = shape
  have comes := first.comes told
  obtain ⟨members, _, rfl, _⟩ := Shape.ofNode_object told (by rintro error rfl; exact comes)
  have twin := Shape.twin_ofNode named members
  rw [told] at twin
  generalize told' : Shape.ofNode .definition site' (.object members) = shape' at twin
  have comes' := second.comes told'
  simp only [Json.flagsAt, told, told'] at same
  have inside : ∀ {inner making}, Shape.ofNode .definition site (.object members) = .group inner making →
      ∀ {each each'}, Settles answer lookup (.all .definition inner) each →
        Settles answer lookup' (.all .definition inner) each' → each = each' := by
    intro inner making told each each' settles settles'
    exact settles.unique settles' fun target among => agree target ((Task.leads_group told).references target among)
  cases twin with
  | same =>
    have again : Settles answer lookup' (.node .definition site (.object members)) [other] := .of_comes told comes'
    exact (List.cons.inj (first.unique again agree)).1
  | reference names =>
    obtain ⟨target, taken, refers, known, made⟩ := comes
    obtain ⟨target', taken', refers', known', made'⟩ := comes'
    rw [refers] at refers'
    cases refers'
    rw [(List.cons.inj made).1, (List.cons.inj made').1, names,
      agree target (Task.mem_references told refers) _ _ known known']
  | array names =>
    obtain ⟨each, made, settles, makes, single⟩ := comes
    obtain ⟨each', made', settles', makes', single'⟩ := comes'
    obtain rfl := inside told settles settles'
    obtain rfl := (List.cons.inj single).1
    obtain rfl := (List.cons.inj single').1
    cases each with
    | nil => cases makes
    | cons element rest =>
      obtain ⟨minItems, unique, rfl, again⟩ := Making.make_array makes
      rw [again] at makes'
      cases makes'
      rw [names, (List.cons.inj same).1]
  | object =>
    obtain ⟨each, made, settles, makes, single⟩ := comes
    obtain ⟨each', made', settles', makes', single'⟩ := comes'
    obtain rfl := inside told settles settles'
    cases makes
    cases makes'
    rw [(List.cons.inj single).1, (List.cons.inj single').1, (List.cons.inj same).1]
  | @map place place' values names given =>
    obtain ⟨each, made, settles, makes, single⟩ := comes
    obtain ⟨each', made', settles', makes', single'⟩ := comes'
    obtain ⟨value, rfl, here⟩ := settles.single
    obtain ⟨value', rfl, here'⟩ := settles'.single
    cases makes
    cases makes'
    obtain ⟨top, below⟩ := List.cons.inj same
    have shallower : (Json.object values).depth ≤ rounds :=
      Nat.le_of_lt_succ
        (Nat.lt_of_lt_of_le (Json.depth_lt_of_mem_partsOfMembers (Members.mem_parts_of_given? given)) deep)
    have deeper : ∀ target ∈ (Json.object values).references, target ∈ (Json.object members).references :=
      fun target among => Json.references_of_mem (List.mem_cons_of_mem _ (Members.mem_parts_of_given? given)) among
    have values_eq := ih here here' rfl (fun target among => agree target (deeper target among)) shallower below
    rw [(List.cons.inj single).1, (List.cons.inj single').1, names, top, values_eq]

end
end FieldTree
