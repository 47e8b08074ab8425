import FieldTree.Proofs.Listing.Room
import FieldTree.Proofs.Resolution.Bounds

/-! Room that suffices for the list of a schema. The list is the same then, however much room there is. -/

namespace FieldTree

variable {σ : Type}

/-- The schema in the text is not nested too deep to be resolved, nor are the fields that come of it to be listed. -/
def Room.Suffices (room : Room) (selector : Selector σ) (start : σ) (text : String) : Prop :=
  ((Document.text text).resolveWithin room.nodes selector start).result ≠ .error .tooDeep ∧
    ∀ schema, ((Document.text text).resolveWithin room.nodes selector start).result = .ok schema →
      Listing.ofSchemaWithin room.fields schema ≠ .error .noRoom

namespace Listing

variable {room room' : Room} {selector : Selector σ} {start : σ} {text : String}

/-- There is a list only where the room suffices for it. -/
theorem suffices_of_listed {leaves : List Leaf}
    (listed : (ofText room selector start jsonSchemaType text).result = .ok leaves) :
    room.Suffices selector start text := by
  have ended : ofResolved room jsonSchemaType ((Document.text text).resolveWithin room.nodes selector start).result =
    .ok leaves := listed
  constructor
  · intro deep
    rw [deep] at ended
    cases ended
  · intro schema resolved cut
    rw [resolved, ofResolved, cut] at ended
    cases ended

/-- Where different rooms suffice, what comes of a text is the same. -/
theorem ofText_eq_of_suffices (enough : room.Suffices selector start text)
    (enough' : room'.Suffices selector start text) (type : String) :
    ofText room selector start type text = ofText room' selector start type text := by
  obtain ⟨roomy, whole⟩ := enough
  obtain ⟨roomy', whole'⟩ := enough'
  have same := Document.resolveWithin_eq_of_roomy roomy roomy'
  unfold ofText
  rw [← same] at whole' ⊢
  split
  · have listed : ofResolved room type ((Document.text text).resolveWithin room.nodes selector start).result =
        ofResolved room' type ((Document.text text).resolveWithin room.nodes selector start).result := by
      cases resolved : ((Document.text text).resolveWithin room.nodes selector start).result with
      | ok schema =>
        have uncut := (ofSchemaWithin_cases room.fields schema).resolve_left (whole schema resolved)
        have uncut' := (ofSchemaWithin_cases room'.fields schema).resolve_left (whole' schema resolved)
        exact uncut.trans uncut'.symm
      | error failure => cases failure <;> rfl
    dsimp only
    rw [listed]
  · rfl

end Listing
end FieldTree
