import FieldTree.Proofs.Field.Parts
import FieldTree.Proofs.Listing.Trails

/-! A path can be read back. If names are neither empty nor hold a dot or a bracket, a path tells the steps that lead to
a leaf, and if besides the fields of every object have names of their own, it leads to one leaf only. -/

namespace FieldTree

namespace Listing

/-- What a path is to tell of a step: which way it leads, but not whether what is there is required. -/
inductive Place
  | child (name : String)
  | element
  | value
  deriving DecidableEq

def Step.place : Step → Place
  | .child name _ => .child name
  | .element => .element
  | .value => .value

/-- A name that ends in a path where the next step begins. -/
structure Readable (name : String) : Prop where
  something : name ≠ ""
  undotted : '.' ∉ name.toList
  unbracketed : '[' ∉ name.toList

def Step.Readable : Step → Prop
  | .child name _ => Listing.Readable name
  | _ => True

/-- The fields of one object can be told by their names in a path. -/
structure Legible (fields : List Field) : Prop where
  distinct : (fields.map Field.name).Nodup
  readable : ∀ field ∈ fields, ∃ name, field.name = some name ∧ Readable name

end Listing

/-- The same of what is in the field, if that is an object. -/
def Field.Legible (field : Field) : Prop := ∀ fields, field.contents? = some fields → Listing.Legible fields

namespace Listing
open FieldTree.Field

/-! A path is read from the front. A name ends where the next step begins. -/

/-- A character that goes on with a name. -/
def goesOn (c : Char) : Bool := c ≠ '.' && c ≠ '['

theorem Readable.goesOn {name : String} (readable : Readable name) : ∀ c ∈ name.toList, goesOn c = true := by
  intro c among
  simp only [Listing.goesOn, Bool.and_eq_true, decide_eq_true_eq]
  constructor
  · rintro rfl
    exact readable.undotted among
  · rintro rfl
    exact readable.unbracketed among

def marks (trail : List Step) : List Char := (String.join (trail.map Step.mark)).toList

theorem marks_cons (step : Step) (rest : List Step) : marks (step :: rest) = step.mark.toList ++ marks rest := by
  simp [marks]

/-- A step begins with a character that no name goes on with. -/
theorem takeWhile_marks (trail : List Step) : (marks trail).takeWhile goesOn = [] := by
  cases trail with
  | nil => rfl
  | cons step rest =>
    rw [marks_cons]
    cases step <;> simp [Step.mark, goesOn]

theorem Readable.split {name name' : String} (readable : Readable name) (readable' : Readable name')
    {rest rest' : List Step} (same : name.toList ++ marks rest = name'.toList ++ marks rest') :
    name = name' ∧ marks rest = marks rest' := by
  have taken := congrArg (List.takeWhile Listing.goesOn) same
  rw [List.takeWhile_append_of_pos readable.goesOn, List.takeWhile_append_of_pos readable'.goesOn, takeWhile_marks,
    takeWhile_marks, List.append_nil, List.append_nil] at taken
  obtain rfl := String.toList_inj.mp taken
  exact ⟨rfl, List.append_cancel_left same⟩

/-- The steps can be read off the texts that they leave. -/
theorem places_eq_of_marks {trail trail' : List Step} (readable : ∀ step ∈ trail, step.Readable)
    (readable' : ∀ step ∈ trail', step.Readable) (same : marks trail = marks trail') :
    trail.map Step.place = trail'.map Step.place := by
  induction trail generalizing trail' with
  | nil =>
    cases trail' with
    | nil => rfl
    | cons step' rest' =>
      rw [marks_cons] at same
      cases step' <;> simp [marks, Step.mark] at same
  | cons step rest ih =>
    obtain ⟨here, later⟩ := List.forall_mem_cons.mp readable
    cases trail' with
    | nil =>
      rw [marks_cons] at same
      cases step <;> simp [marks, Step.mark] at same
    | cons step' rest' =>
      obtain ⟨here', later'⟩ := List.forall_mem_cons.mp readable'
      rw [marks_cons, marks_cons] at same
      cases step with
      | child name =>
        cases step' with
        | child name' =>
          simp only [Step.mark, String.toList_append, List.append_assoc, List.append_cancel_left_eq] at same
          obtain ⟨rfl, same_rest⟩ := Readable.split here here' same
          exact congrArg (Place.child name :: ·) (ih later later' same_rest)
        | _ => simp [Step.mark] at same
      | element =>
        cases step' with
        | element => exact congrArg (Place.element :: ·) (ih later later' (List.append_cancel_left same))
        | _ => simp [Step.mark] at same
      | value =>
        cases step' with
        | value => exact congrArg (Place.value :: ·) (ih later later' (List.append_cancel_left same))
        | _ => simp [Step.mark] at same

/-- A path that begins with a name tells the steps. -/
theorem places_eq_of_path {name name' : String} {flag flag' : Bool} {inside inside' : List Step}
    (readable : ∀ step ∈ Step.child name flag :: inside, step.Readable)
    (readable' : ∀ step ∈ Step.child name' flag' :: inside', step.Readable)
    (same : path (.child name flag :: inside) = path (.child name' flag' :: inside')) :
    (Step.child name flag :: inside).map Step.place = (Step.child name' flag' :: inside').map Step.place := by
  apply places_eq_of_marks readable readable'
  have dotted := congrArg ("." ++ ·) same
  have whole := congrArg String.toList dotted
  simpa [marks, path, Step.mark] using whole

/-! In a tree of legible fields every stop is a leaf, and each has a place of its own. -/

/-- The leaf lies behind the trail, with readable steps between. -/
def Stop.Behind (trail : List Step) (stop : Stop) : Prop :=
  ∃ inside kind, stop = .leaf (trail ++ inside) kind ∧ ∀ step ∈ inside, step.Readable

theorem Stop.Behind.of_step {trail : List Step} {step : Step} {stop : Stop} (behind : stop.Behind (trail ++ [step]))
    (readable : step.Readable) :
    ∃ inside kind, stop = .leaf (trail ++ step :: inside) kind ∧ ∀ other ∈ step :: inside, other.Readable := by
  obtain ⟨inside, kind, rfl, others⟩ := behind
  exact ⟨inside, kind, by simp, List.forall_mem_cons.mpr ⟨readable, others⟩⟩

theorem stopsAll_cons {field : Field} {name : String} (named : field.name = some name) (readable : Readable name)
    (trail : List Step) (requiredNames : List String) (rest : List Field) :
    stopsAll trail requiredNames (field :: rest) =
      field.stops (trail ++ [.child name (field.RequiredAmong requiredNames)]) ++ stopsAll trail requiredNames rest := by
  rw [stopsAll, told?_eq_some_iff.mpr ⟨named, readable.something⟩]

theorem leaf_behind (trail : List Step) (kind : Kind) : ∀ stop ∈ [Stop.leaf trail kind], stop.Behind trail := by
  intro stop among
  rw [List.mem_singleton.mp among]
  exact ⟨[], kind, by rw [List.append_nil], List.forall_mem_nil _⟩

mutual
theorem stops_behind {trail : List Step} : (field : Field) → field.Everywhere Field.Legible →
    ∀ stop ∈ field.stops trail, stop.Behind trail
  | .scalar _ _ type, _ => leaf_behind trail type.kind
  | .array _ _ element _ _, everywhere => by
    intro stop among
    have inside := (everywhere_iff.mp everywhere).2 element List.mem_cons_self
    obtain ⟨steps, kind, rfl, readable⟩ := (stops_behind element inside stop among).of_step trivial
    exact ⟨_, kind, rfl, readable⟩
  | .object _ _ [] _, _ => leaf_behind trail .object
  | .object _ _ (field :: fields) _, everywhere => by
    intro stop among
    obtain ⟨legible, inside⟩ := everywhere_iff.mp everywhere
    obtain ⟨name, flag, steps, kind, _, rfl, readable⟩ :=
      stopsAll_behind (field :: fields) (legible _ rfl).readable inside stop among
    exact ⟨_, kind, rfl, readable⟩
  | .map _ _ value, everywhere => by
    intro stop among
    have inside := (everywhere_iff.mp everywhere).2 value List.mem_cons_self
    obtain ⟨steps, kind, rfl, readable⟩ := (stops_behind value inside stop among).of_step trivial
    exact ⟨_, kind, rfl, readable⟩

theorem stopsAll_behind {trail : List Step} {requiredNames : List String} : (fields : List Field) →
    (∀ field ∈ fields, ∃ name, field.name = some name ∧ Readable name) →
    (∀ field ∈ fields, field.Everywhere Field.Legible) → ∀ stop ∈ stopsAll trail requiredNames fields,
      ∃ name flag inside kind, some name ∈ fields.map Field.name ∧
        stop = .leaf (trail ++ .child name flag :: inside) kind ∧
        ∀ step ∈ Step.child name flag :: inside, step.Readable
  | [], _, _ => List.forall_mem_nil _
  | field :: rest, readable, everywhere => by
    obtain ⟨⟨name, named, spelled⟩, others⟩ := List.forall_mem_cons.mp readable
    obtain ⟨here, later⟩ := List.forall_mem_cons.mp everywhere
    intro stop among
    rw [stopsAll_cons named spelled] at among
    rcases List.mem_append.mp among with first | further
    · obtain ⟨inside, kind, rfl, steps⟩ := (stops_behind field here stop first).of_step spelled
      exact ⟨name, _, inside, kind, named ▸ List.mem_cons_self, rfl, steps⟩
    · obtain ⟨other, flag, inside, kind, known, rfl, steps⟩ := stopsAll_behind rest others later stop further
      exact ⟨other, flag, inside, kind, List.mem_cons_of_mem _ known, rfl, steps⟩
end

/-- Where a stop is in the tree. -/
def Stop.places : Stop → List Place
  | .leaf trail _ => trail.map Step.place
  | .unnamed trail => trail.map Step.place

mutual
theorem nodup_stops {trail : List Step} : (field : Field) → field.Everywhere Field.Legible →
    ((field.stops trail).map Stop.places).Nodup
  | .scalar .., _ => List.pairwise_singleton _ _
  | .array _ _ element _ _, everywhere =>
    nodup_stops element ((everywhere_iff.mp everywhere).2 element List.mem_cons_self)
  | .object _ _ [] _, _ => List.pairwise_singleton _ _
  | .object _ _ (field :: fields) _, everywhere =>
    have ⟨legible, inside⟩ := everywhere_iff.mp everywhere
    nodup_stopsAll (field :: fields) (legible _ rfl) inside
  | .map _ _ value, everywhere => nodup_stops value ((everywhere_iff.mp everywhere).2 value List.mem_cons_self)

theorem nodup_stopsAll {trail : List Step} {requiredNames : List String} : (fields : List Field) → Legible fields →
    (∀ field ∈ fields, field.Everywhere Field.Legible) →
      ((stopsAll trail requiredNames fields).map Stop.places).Nodup
  | [], _, _ => List.nodup_nil
  | field :: rest, legible, everywhere => by
    obtain ⟨⟨name, named, spelled⟩, others⟩ := List.forall_mem_cons.mp legible.readable
    obtain ⟨here, later⟩ := List.forall_mem_cons.mp everywhere
    obtain ⟨new, distinct⟩ := List.nodup_cons.mp legible.distinct
    rw [stopsAll_cons named spelled, List.map_append, List.nodup_append]
    refine ⟨nodup_stops field here, nodup_stopsAll rest ⟨distinct, others⟩ later, ?_⟩
    -- Behind the trail, the first field and the others go on with different names.
    intro places among places' among' same
    obtain ⟨stop, first, rfl⟩ := List.mem_map.mp among
    obtain ⟨stop', further, rfl⟩ := List.mem_map.mp among'
    obtain ⟨inside, kind, rfl, _⟩ := (stops_behind field here stop first).of_step spelled
    obtain ⟨other, flag, inside', kind', known, rfl, _⟩ := stopsAll_behind rest others later stop' further
    simp only [Stop.places, List.map_append, List.map_cons, Step.place, List.append_cancel_left_eq, List.cons.injEq,
      Place.child.injEq] at same
    obtain ⟨rfl, _⟩ := same
    exact new (named ▸ known)
end

/-- A tree of fields that a listing may be asked for: legible at the root and everywhere inside. -/
structure LegibleTree (fields : List Field) : Prop where
  root : Legible fields
  inside : ∀ field ∈ fields, field.Everywhere Field.Legible

variable {fields fields' : List Field} {requiredNames requiredNames' : List String}

/-- In legible trees, leaves of one path are in one place. -/
theorem LegibleTree.places_eq (legible : LegibleTree fields) (legible' : LegibleTree fields')
    {trail trail' : List Step} {kind kind' : Kind} (among : .leaf trail kind ∈ stopsAll [] requiredNames fields)
    (among' : .leaf trail' kind' ∈ stopsAll [] requiredNames' fields') (same : path trail = path trail') :
    trail.map Step.place = trail'.map Step.place := by
  obtain ⟨_, _, _, _, _, told, readable⟩ := stopsAll_behind fields legible.root.readable legible.inside _ among
  obtain ⟨_, _, _, _, _, told', readable'⟩ := stopsAll_behind fields' legible'.root.readable legible'.inside _ among'
  cases told
  cases told'
  exact places_eq_of_path readable readable' same

theorem nodup_paths {stops : List Stop} (apart : (stops.map Stop.places).Nodup)
    (told : ∀ {trail kind trail' kind'}, .leaf trail kind ∈ stops → .leaf trail' kind' ∈ stops →
      path trail = path trail' → trail.map Step.place = trail'.map Step.place) : (paths stops).Nodup := by
  induction stops with
  | nil => exact List.nodup_nil
  | cons stop rest ih =>
    obtain ⟨new, apart⟩ := List.nodup_cons.mp apart
    have others := ih apart fun among among' => told (List.mem_cons_of_mem _ among) (List.mem_cons_of_mem _ among')
    cases stop with
    | unnamed => exact others
    | leaf trail kind =>
      refine List.nodup_cons.mpr ⟨fun again => ?_, others⟩
      obtain ⟨trail', kind', among, same⟩ := mem_paths.mp again
      exact new (List.mem_map.mpr ⟨_, among, told (List.mem_cons_of_mem _ among) List.mem_cons_self same⟩)

/-- A listing of a legible tree has nothing to object to. -/
theorem LegibleTree.free (legible : LegibleTree fields) (requiredNames : List String) :
    Free (stopsAll [] requiredNames fields) := by
  refine free_iff.mpr ⟨fun stop among => ?_, ?_⟩
  · obtain ⟨_, _, _, kind, _, rfl, _⟩ := stopsAll_behind fields legible.root.readable legible.inside stop among
    exact ⟨_, kind, rfl⟩
  · exact nodup_paths (nodup_stopsAll fields legible.root legible.inside) (legible.places_eq legible)

/-- A legible tree has a listing, in which every leaf stands once and no path twice. The path of a leaf tells its place,
the chain of names, of elements and of values that leads to it, also beside any other legible tree. -/
theorem legible_addresses (legible : LegibleTree fields) (requiredNames : List String) :
    (∃ leaves, ofFields fields requiredNames = .ok leaves ∧
      (stopsAll [] requiredNames fields).map Stop.leaf? = leaves.map some ∧ (leaves.map Leaf.path).Nodup) ∧
    ∀ fields' requiredNames', LegibleTree fields' → ∀ trail kind trail' kind',
      .leaf trail kind ∈ stopsAll [] requiredNames fields → .leaf trail' kind' ∈ stopsAll [] requiredNames' fields' →
      path trail = path trail' → trail.map Step.place = trail'.map Step.place := by
  refine ⟨?_, fun fields' requiredNames' legible' _ _ _ _ among among' => legible.places_eq legible' among among'⟩
  have free := legible.free requiredNames
  refine ⟨_, ?_, free.leaves, (free_iff.mp free).2⟩
  rw [ofFields_eq]
  exact free.addAll

/-- A grid of cells that has a size, as the root has. -/
def grid : List Field :=
  [.object (some "grid") none [.array (some "cells") none (.map none none (.scalar none none .integer)) .zero false,
      .scalar (some "size") none .integer] [],
    .scalar (some "size") none .boolean]

theorem legible_grid : LegibleTree grid := by
  have grid_readable : Readable "grid" := ⟨by decide, by decide, by decide⟩
  have cells_readable : Readable "cells" := ⟨by decide, by decide, by decide⟩
  have size_readable : Readable "size" := ⟨by decide, by decide, by decide⟩
  refine ⟨⟨by decide, ?_⟩, ?_⟩
  · simpa [grid, Field.name] using ⟨grid_readable, size_readable⟩
  · intro field among part inside fields contents
    simp only [grid, List.mem_cons, List.not_mem_nil, or_false] at among
    rcases among with rfl | rfl <;>
      simp only [Field.parts, Field.partsOfAll, List.mem_cons, List.mem_append, List.not_mem_nil, or_false] at inside
    · rcases inside with rfl | (rfl | rfl | rfl) | rfl <;> cases contents
      refine ⟨by decide, ?_⟩
      simpa [Field.name] using ⟨cells_readable, size_readable⟩
    · rw [inside] at contents
      cases contents

/-- The path of its cells tells where they are. -/
theorem legible_addresses_grid :
    (∃ leaves, ofFields grid [] = .ok leaves ∧ (leaves.map Leaf.path).Nodup) ∧
      ∀ trail kind, .leaf trail kind ∈ stopsAll [] [] grid → path trail = "grid.cells[][:]" →
        trail.map Step.place = [.child "grid", .child "cells", .element, .value] := by
  obtain ⟨⟨leaves, ok, _, nodup⟩, told⟩ := legible_addresses legible_grid []
  refine ⟨⟨leaves, ok, nodup⟩, fun trail kind among same => ?_⟩
  exact told grid [] legible_grid trail kind [.child "grid" false, .child "cells" false, .element, .value] .integer among
    (by decide +kernel) same

end Listing
end FieldTree
