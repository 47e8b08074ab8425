import FieldTree.Json.Basic

/-! Values inside values. The parts of a value are the value itself, its items or members, and their parts;
the depth of a value counts the arrays and objects around the innermost part. -/

namespace FieldTree
namespace Json

mutual
def parts : Json → List Json
  | .null => [.null]
  | .bool value => [.bool value]
  | .number value => [.number value]
  | .string value => [.string value]
  | .array items => .array items :: partsOfItems items
  | .object members => .object members :: partsOfMembers members

def partsOfItems : List Json → List Json
  | [] => []
  | item :: rest => parts item ++ partsOfItems rest

def partsOfMembers : List (String × Json) → List Json
  | [] => []
  | (_, value) :: rest => parts value ++ partsOfMembers rest
end

mutual
def depth : Json → Nat
  | .null => 0
  | .bool _ => 0
  | .number _ => 0
  | .string _ => 0
  | .array items => depthOfItems items + 1
  | .object members => depthOfMembers members + 1

def depthOfItems : List Json → Nat
  | [] => 0
  | item :: rest => max (depth item) (depthOfItems rest)

def depthOfMembers : List (String × Json) → Nat
  | [] => 0
  | (_, value) :: rest => max (depth value) (depthOfMembers rest)
end

theorem self_mem_parts (value : Json) : value ∈ value.parts := by
  cases value <;> simp [parts]

theorem mem_partsOfItems {part : Json} {items : List Json} :
    part ∈ partsOfItems items ↔ ∃ item ∈ items, part ∈ item.parts := by
  induction items with
  | nil => simp [partsOfItems]
  | cons item rest ih => simp [partsOfItems, ih]

theorem mem_partsOfMembers {part : Json} {members : List (String × Json)} :
    part ∈ partsOfMembers members ↔ ∃ entry ∈ members, part ∈ entry.2.parts := by
  induction members with
  | nil => simp [partsOfMembers]
  | cons entry rest ih => simp [partsOfMembers, ih]

mutual
theorem parts_trans {inner part : Json} (inside : inner ∈ part.parts) :
    (outer : Json) → part ∈ outer.parts → inner ∈ outer.parts
  | .null, among => by simp_all [parts]
  | .bool _, among => by simp_all [parts]
  | .number _, among => by simp_all [parts]
  | .string _, among => by simp_all [parts]
  | .array items, among => by
    rcases List.mem_cons.mp among with rfl | deeper
    · exact inside
    · exact List.mem_cons_of_mem _ (partsOfItems_trans inside items deeper)
  | .object members, among => by
    rcases List.mem_cons.mp among with rfl | deeper
    · exact inside
    · exact List.mem_cons_of_mem _ (partsOfMembers_trans inside members deeper)

theorem partsOfItems_trans {inner part : Json} (inside : inner ∈ part.parts) :
    (items : List Json) → part ∈ partsOfItems items → inner ∈ partsOfItems items
  | [], among => by simp [partsOfItems] at among
  | item :: rest, among => by
    rcases List.mem_append.mp among with here | later
    · exact List.mem_append_left _ (parts_trans inside item here)
    · exact List.mem_append_right _ (partsOfItems_trans inside rest later)

theorem partsOfMembers_trans {inner part : Json} (inside : inner ∈ part.parts) :
    (members : List (String × Json)) → part ∈ partsOfMembers members → inner ∈ partsOfMembers members
  | [], among => by simp [partsOfMembers] at among
  | (_, value) :: rest, among => by
    rcases List.mem_append.mp among with here | later
    · exact List.mem_append_left _ (parts_trans inside value here)
    · exact List.mem_append_right _ (partsOfMembers_trans inside rest later)
end

mutual
theorem depth_le_of_mem_parts {part : Json} : (value : Json) → part ∈ value.parts → part.depth ≤ value.depth
  | .null, among => by simp_all [parts]
  | .bool _, among => by simp_all [parts]
  | .number _, among => by simp_all [parts]
  | .string _, among => by simp_all [parts]
  | .array items, among => by
    rcases List.mem_cons.mp among with rfl | deeper
    · exact Nat.le_refl _
    · exact Nat.le_succ_of_le (depth_le_of_mem_partsOfItems items deeper)
  | .object members, among => by
    rcases List.mem_cons.mp among with rfl | deeper
    · exact Nat.le_refl _
    · exact Nat.le_succ_of_le (depth_le_of_mem_partsOfMembers members deeper)

theorem depth_le_of_mem_partsOfItems {part : Json} :
    (items : List Json) → part ∈ partsOfItems items → part.depth ≤ depthOfItems items
  | [], among => by simp [partsOfItems] at among
  | item :: rest, among => by
    rcases List.mem_append.mp among with here | later
    · exact Nat.le_trans (depth_le_of_mem_parts item here) (Nat.le_max_left _ _)
    · exact Nat.le_trans (depth_le_of_mem_partsOfItems rest later) (Nat.le_max_right _ _)

theorem depth_le_of_mem_partsOfMembers {part : Json} :
    (members : List (String × Json)) → part ∈ partsOfMembers members → part.depth ≤ depthOfMembers members
  | [], among => by simp [partsOfMembers] at among
  | (_, value) :: rest, among => by
    rcases List.mem_append.mp among with here | later
    · exact Nat.le_trans (depth_le_of_mem_parts value here) (Nat.le_max_left _ _)
    · exact Nat.le_trans (depth_le_of_mem_partsOfMembers rest later) (Nat.le_max_right _ _)
end

/-- What stands in an object is less deep than the object. -/
theorem depth_lt_of_mem_partsOfMembers {part : Json} {members : Members} (inside : part ∈ partsOfMembers members) :
    part.depth < (Json.object members).depth :=
  Nat.lt_succ_of_le (depth_le_of_mem_partsOfMembers members inside)

theorem depthOfMembers_le {members : Members} {limit : Nat} (bounded : ∀ entry ∈ members, entry.2.depth ≤ limit) :
    depthOfMembers members ≤ limit := by
  induction members with
  | nil => exact Nat.zero_le _
  | cons entry rest ih =>
    exact Nat.max_le.mpr ⟨bounded entry List.mem_cons_self, ih fun entry later =>
      bounded entry (List.mem_cons_of_mem _ later)⟩

/-- A property that a value hands on to its parts. -/
def Inherited (holds : Json → Prop) : Prop := ∀ {value part : Json}, holds value → part ∈ value.parts → holds part

theorem inherited_forall_parts (holds : Json → Prop) : Inherited fun value => ∀ part ∈ value.parts, holds part :=
  fun {value _} every inside inner deeper => every inner (parts_trans deeper value inside)

end Json

namespace Entries

theorem mem_of_get?_eq_some {α : Type} {entries : Entries α} {key : String} {value : α}
    (found : entries.get? key = some value) : (key, value) ∈ entries := by
  induction entries with
  | nil => simp [get?] at found
  | cons entry rest ih =>
    obtain ⟨other, here⟩ := entry
    by_cases same : other = key
    · simp only [get?, same, ite_true, Option.some.injEq] at found
      simp [same, found]
    · simp only [get?, same, ite_false] at found
      exact List.mem_cons_of_mem _ (ih found)

end Entries

namespace Members
open Json

theorem get?_of_given? {members : Members} {key : String} {value : Json} (given : members.given? key = some value) :
    members.get? key = some value := by
  unfold given? at given
  split at given
  · cases given
  · exact given

theorem mem_of_given? {members : Members} {key : String} {value : Json} (given : members.given? key = some value) :
    (key, value) ∈ members :=
  Entries.mem_of_get?_eq_some (get?_of_given? given)

theorem mem_parts_of_mem {members : Members} {key : String} {value : Json} (member : (key, value) ∈ members) :
    value ∈ partsOfMembers members :=
  mem_partsOfMembers.mpr ⟨_, member, value.self_mem_parts⟩

theorem mem_parts_of_given? {members : Members} {key : String} {value : Json}
    (given : members.given? key = some value) : value ∈ partsOfMembers members :=
  mem_parts_of_mem (mem_of_given? given)

/-- The parts of an array or object that is a member are parts of the object around it. -/
theorem mem_parts_of_given?_object {members inner : Members} {key : String} {part : Json}
    (given : members.given? key = some (.object inner))
    (inside : part ∈ partsOfMembers inner) : part ∈ partsOfMembers members :=
  partsOfMembers_trans (List.mem_cons_of_mem _ inside) members (mem_parts_of_given? given)

end Members

namespace Json.Inherited

variable {holds : Json → Prop} {members : Members} {key : String}

theorem inside (inherited : Inherited holds) (around : holds (.object members)) {part : Json}
    (among : part ∈ partsOfMembers members) : holds part :=
  inherited around (List.mem_cons_of_mem _ among)

theorem given (inherited : Inherited holds) (around : holds (.object members)) {value : Json}
    (given : members.given? key = some value) : holds value :=
  inherited.inside around (Members.mem_parts_of_given? given)

end Json.Inherited
end FieldTree
