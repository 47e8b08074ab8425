/-! Entries by key, in the order in which the keys came first. -/

namespace FieldTree

abbrev Entries (α : Type) := List (String × α)

namespace Entries

/-- A key that is there already keeps its place and takes the new value. -/
def insert {α : Type} (entries : Entries α) (key : String) (value : α) : Entries α :=
  match entries with
  | [] => [(key, value)]
  | (k, old) :: rest => if k = key then (k, value) :: rest else (k, old) :: insert rest key value

def get? {α : Type} (entries : Entries α) (key : String) : Option α :=
  match entries with
  | [] => none
  | (k, value) :: rest => if k = key then some value else get? rest key

def has {α : Type} (entries : Entries α) (key : String) : Bool := (get? entries key).isSome

@[simp] theorem get?_insert {α : Type} (entries : Entries α) (key : String) (value : α) (other : String) :
    (entries.insert key value).get? other = if key = other then some value else entries.get? other := by
  induction entries with
  | nil => simp [insert, get?]
  | cons entry rest ih =>
    obtain ⟨k, old⟩ := entry
    by_cases same : k = key
    · subst same
      by_cases here : k = other <;> simp [insert, get?, here]
    · by_cases here : k = other
      · subst here
        simp [insert, get?, same, Ne.symm same]
      · simpa [insert, get?, same, here] using ih

end Entries
end FieldTree
