import FieldTree.Proofs.Listing.Trails

/-! Listings for which there is only so much room. Such a listing goes over the same stops, and is the same, unless it
comes to a stop for which there is no room before there is anything to object to. -/

namespace FieldTree

namespace Listing

/-- How many fields are open where the walk stops. -/
def Stop.depth : Stop → Nat
  | .leaf trail _ => trail.length
  | .unnamed trail => trail.length

/-- There is room for each of the stops. -/
def Fit (room : Nat) (stops : List Stop) : Prop := ∀ stop ∈ stops, stop.depth ≤ room

/-- The first stop for which there is no room comes before there is anything to object to. -/
def Overruns (room : Nat) (stops : List Stop) : Prop :=
  ∃ before stop after, stops = before ++ stop :: after ∧ Free before ∧ Fit room before ∧ room < stop.depth

/-- Lists one stop more, if there is room for it. -/
def Stop.addWithin (room : Nat) (leaves : List Leaf) (stop : Stop) : Except ListingFailure (List Leaf) :=
  if stop.depth ≤ room then (stop.add leaves).mapError .listing else .error .noRoom

end Listing

namespace Field
open Listing

/-- Something stops the walk in every field, and no less deep than the field is. -/
theorem stops_eq_cons (trail : List Step) (field : Field) :
    ∃ stop rest, field.stops trail = stop :: rest ∧ trail.length ≤ stop.depth := by
  cases field with
  | scalar => exact ⟨_, _, rfl, Nat.le_refl _⟩
  | array _ _ element =>
    obtain ⟨stop, rest, same, deep⟩ := stops_eq_cons (trail ++ [.element]) element
    rw [List.length_append] at deep
    exact ⟨stop, rest, same, Nat.le_of_add_right_le deep⟩
  | object _ _ fields requiredNames =>
    cases fields with
    | nil => exact ⟨_, _, rfl, Nat.le_refl _⟩
    | cons field fields =>
      rw [stops, stopsAll]
      cases field.told? with
      | none => exact ⟨_, _, rfl, Nat.le_refl _⟩
      | some name =>
        obtain ⟨stop, rest, same, deep⟩ :=
          stops_eq_cons (trail ++ [.child name (field.RequiredAmong requiredNames)]) field
        rw [List.length_append] at deep
        refine ⟨stop, rest ++ stopsAll trail requiredNames fields, ?_, Nat.le_of_add_right_le deep⟩
        simp only [same, List.cons_append]
  | map _ _ value =>
    obtain ⟨stop, rest, same, deep⟩ := stops_eq_cons (trail ++ [.value]) value
    rw [List.length_append] at deep
    exact ⟨stop, rest, same, Nat.le_of_add_right_le deep⟩

end Field

namespace Listing
open FieldTree.Field

theorem registerWithin_eq {room : Nat} (leaves : List Leaf) {trail : List Step} (begun : path trail ≠ "")
    (fits : trail.length ≤ room) (kind : Kind) :
    (register leaves ⟨path trail, kind.name ++ suffix trail, required trail⟩).mapError .listing =
      [Stop.leaf trail kind].foldlM (Stop.addWithin room) leaves := by
  rw [register_eq leaves begun kind]
  simp only [List.foldlM_cons, List.foldlM_nil, bind_pure, Stop.addWithin, Stop.depth, fits, if_true]

/-- A step further takes as much of the room as the trail becomes longer. -/
theorem length_concat_add {trail : List Step} {room all : Nat} (left : trail.length + (room + 1) = all + 1)
    (step : Step) : (trail ++ [step]).length + room = all + 1 := by
  rw [List.length_append, List.length_singleton]
  omega

mutual
/-- What is left inside a field, together with the trail that leads to it, makes up all the room. -/
theorem addFieldWithin_eq {all : Nat} (leaves : List Leaf) {trail : List Step} (begun : path trail ≠ "") :
    (room : Nat) → trail.length + room = all + 1 → (field : Field) →
      addFieldWithin room leaves (path trail) (suffix trail) (required trail) field =
        (field.stops trail).foldlM (Stop.addWithin all) leaves
  | 0, spent, field => by
    obtain ⟨stop, rest, same, deep⟩ := field.stops_eq_cons trail
    rw [addFieldWithin, same, List.foldlM_cons, Stop.addWithin, if_neg (by omega)]
    rfl
  | _ + 1, left, .scalar _ _ type => by
    rw [addFieldWithin]
    exact registerWithin_eq leaves begun (by omega) type.kind
  | room + 1, left, .array _ _ element _ _ => by
    have inside := addFieldWithin_eq leaves (path_concat_ne_empty begun .element) room
      (length_concat_add left .element) element
    rwa [path_concat (ne_nil_of_path begun), suffix_element, required_element] at inside
  | _ + 1, left, .object _ _ [] _ => by
    rw [addFieldWithin]
    exact registerWithin_eq leaves begun (by omega) .object
  | room + 1, left, .object _ _ (field :: fields) _ => by
    rw [addFieldWithin]
    exact addFieldsWithin_eq leaves (.inr begun) room (by omega) (field :: fields)
  | room + 1, left, .map _ _ value => by
    have inside := addFieldWithin_eq leaves (path_concat_ne_empty begun .value) room
      (length_concat_add left .value) value
    rwa [path_concat (ne_nil_of_path begun), suffix_value, required_value] at inside

theorem addFieldsWithin_eq {all : Nat} (leaves : List Leaf) {trail : List Step} (start : trail = [] ∨ path trail ≠ "")
    (room : Nat) (left : trail.length + room = all) {requiredNames : List String} : (fields : List Field) →
      addFieldsWithin room leaves (path trail) requiredNames fields =
        (stopsAll trail requiredNames fields).foldlM (Stop.addWithin all) leaves
  | [] => rfl
  | field :: rest => by
    rw [addFieldsWithin, childPath_eq start field (field.RequiredAmong requiredNames), stopsAll, List.foldlM_append,
      isRequired_eq]
    cases told : field.told? with
    | none =>
      have fits : (Stop.unnamed trail).depth ≤ all := by
        simp only [Stop.depth]
        omega
      rw [List.foldlM_cons, Stop.addWithin, if_pos fits]
      rfl
    | some name =>
      have here := addFieldWithin_eq leaves (path_told_ne_empty start told (field.RequiredAmong requiredNames)) room
        (length_concat_add (congrArg (· + 1) left) _) field
      rw [suffix_child, required_child] at here
      simp only [Except.mapError, bind, Except.bind, ← here]
      split
      · rfl
      · exact addFieldsWithin_eq _ start room left rest
end

/-! What comes of going over the stops with only so much room. -/

variable {room : Nat} {stops before after : List Stop} {stop : Stop}

theorem addAllWithin_of_fit (fit : Fit room stops) (leaves : List Leaf) :
    stops.foldlM (Stop.addWithin room) leaves = (stops.foldlM Stop.add leaves).mapError .listing := by
  induction stops generalizing leaves with
  | nil => rfl
  | cons stop rest ih =>
    obtain ⟨here, later⟩ := List.forall_mem_cons.mp fit
    rw [List.foldlM_cons, List.foldlM_cons, Stop.addWithin, if_pos here]
    cases stop.add leaves with
    | error error => rfl
    | ok more => exact ih later more

/-- Where there is no room for a stop, it does not matter what comes after it. -/
theorem addAllWithin_of_deep (fit : Fit room before) (deep : room < stop.depth) :
    (before ++ stop :: after).foldlM (Stop.addWithin room) [] =
      (before.foldlM Stop.add []).mapError .listing >>= fun _ => .error .noRoom := by
  rw [List.foldlM_append, addAllWithin_of_fit fit]
  congr 1
  funext leaves
  rw [List.foldlM_cons, Stop.addWithin, if_neg (Nat.not_le.mpr deep)]
  rfl

theorem fit_or_exists_deep (room : Nat) (stops : List Stop) :
    Fit room stops ∨ ∃ before stop after, stops = before ++ stop :: after ∧ Fit room before ∧ room < stop.depth := by
  induction stops with
  | nil => exact .inl nofun
  | cons stop rest ih =>
    by_cases here : stop.depth ≤ room
    · rcases ih with fit | ⟨before, deep, after, rfl, fit, depth⟩
      · exact .inl (List.forall_mem_cons.mpr ⟨here, fit⟩)
      · exact .inr ⟨stop :: before, deep, after, rfl, List.forall_mem_cons.mpr ⟨here, fit⟩, depth⟩
    · exact .inr ⟨[], stop, rest, rfl, nofun, Nat.lt_of_not_le here⟩

/-- There is nothing to object to before the first stop. -/
theorem overruns_of_head? {stop : Stop} (first : stops.head? = some stop) (deep : room < stop.depth) :
    Overruns room stops := by
  obtain ⟨after, rfl⟩ := List.head?_eq_some_iff.mp first
  exact ⟨[], stop, after, rfl, free_nil, nofun, deep⟩

theorem Overruns.addAllWithin (overruns : Overruns room stops) :
    stops.foldlM (Stop.addWithin room) [] = .error .noRoom := by
  obtain ⟨before, stop, after, rfl, free, fit, deep⟩ := overruns
  rw [addAllWithin_of_deep fit deep, free.addAll]
  rfl

theorem addAllWithin_of_not_overruns (roomy : ¬Overruns room stops) :
    stops.foldlM (Stop.addWithin room) [] = (stops.foldlM Stop.add []).mapError .listing := by
  rcases fit_or_exists_deep room stops with fit | ⟨before, stop, after, rfl, fit, deep⟩
  · exact addAllWithin_of_fit fit []
  · have offence : ¬Free before := fun free => roomy ⟨before, stop, after, rfl, free, fit, deep⟩
    obtain ⟨earlier, first, later, error, rfl, free, offends⟩ := exists_offence offence
    have failed : (earlier ++ first :: later).foldlM Stop.add [] = .error error := addAll_of_offends free offends
    rw [addAllWithin_of_deep fit deep, failed, List.foldlM_append, failed]
    rfl

theorem ofSchemaWithin_eq (room : Nat) (schema : Schema) :
    ofSchemaWithin room schema = (stopsOf schema).foldlM (Stop.addWithin room) [] :=
  addFieldsWithin_eq [] (.inl rfl) room (Nat.zero_add room) schema.properties

theorem ofSchemaWithin_of_not_overruns {schema : Schema} (roomy : ¬Overruns room (stopsOf schema)) :
    ofSchemaWithin room schema = (ofSchema schema).mapError .listing := by
  rw [ofSchemaWithin_eq, ofSchema_eq]
  exact addAllWithin_of_not_overruns roomy

theorem exists_of_mapError {α : Type} {result : Except ListingError α} {cause : ListingFailure}
    (failed : result.mapError .listing = .error cause) : ∃ error, cause = .listing error := by
  cases result with
  | ok value => cases failed
  | error error => exact ⟨error, (Except.error.inj failed).symm⟩

/-- A listing is cut short exactly if there is no room for a stop that comes before any that there is something to
object to. -/
theorem ofSchemaWithin_noRoom_iff {schema : Schema} :
    ofSchemaWithin room schema = .error .noRoom ↔ Overruns room (stopsOf schema) := by
  constructor
  · intro cut
    apply Classical.byContradiction
    intro roomy
    rw [ofSchemaWithin_of_not_overruns roomy] at cut
    obtain ⟨error, same⟩ := exists_of_mapError cut
    cases same
  · intro overruns
    rw [ofSchemaWithin_eq]
    exact overruns.addAllWithin

/-- A listing ends with a list or with what there is to object to, in the same way as if there were room for anything,
unless it is cut short. -/
theorem ofSchemaWithin_cases (room : Nat) (schema : Schema) :
    ofSchemaWithin room schema = .error .noRoom ∨ ofSchemaWithin room schema = (ofSchema schema).mapError .listing := by
  by_cases overruns : Overruns room (stopsOf schema)
  · exact .inl (ofSchemaWithin_noRoom_iff.mpr overruns)
  · exact .inr (ofSchemaWithin_of_not_overruns overruns)

/-- Of two leaves with one path the second is not objected to where there is no room for what comes before it. -/
example :
    let grid := Field.array (some "grid") none (.array none none (.scalar none none .integer) .zero false) .zero false
    ofFieldsWithin 2 [grid, grid] [] = .error .noRoom ∧
      ofFieldsWithin 3 [grid, grid] [] = .error (.listing (.duplicate "grid[][]")) := ⟨rfl, rfl⟩

end Listing
end FieldTree
