import FieldTree.Proofs.Resolution.Yields

/-! With enough room the walk ends as the relation tells. -/

namespace FieldTree

variable {σ : Type}

namespace Walker
open Resolve Node

variable {context : Context σ} {walker : Walker σ} {before after : State σ}

/-- With enough room the walk of the task ends like this. -/
def Walks (context : Context σ) (task : Task) (before : State σ) (fields : List Field) (after : State σ) : Prop :=
  ∃ enough, ∀ bound, enough ≤ bound → ((FieldTree.walker context bound).carryOut task).Ends before fields after

theorem walks_of_performs {manner : Manner} {site : Site} {node : Json} (child : Option Field) (enough : Nat)
    (something : manner.side = .property → child.isSome)
    (performs : ∀ bound, enough ≤ bound →
      (Walker.perform context (FieldTree.walker context bound) manner.side
        (Shape.ofNode manner site node)).Ends before child after) :
    Walks context (.node manner site node) before child.toList after := by
  refine ⟨enough + 1, fun bound room => ?_⟩
  obtain ⟨bound, rfl⟩ := Nat.exists_eq_add_of_le' (Nat.le_trans (Nat.le_add_left 1 enough) room)
  have performed := performs bound (by omega)
  have expected : manner.side = .property → ∃ field, child = some field ∧
      (Walker.perform context (FieldTree.walker context bound) manner.side (Shape.ofNode manner site node) >>=
        expect site.name).Ends before field after := by
    intro sided
    obtain ⟨field, rfl⟩ := Option.isSome_iff_exists.mp (something sided)
    exact ⟨field, rfl, ends_bind.mpr ⟨some field, after, performed, ends_expect.mpr ⟨rfl, rfl⟩⟩⟩
  cases manner with
  | definition =>
    refine ends_bind.mpr ⟨child, after, ?_, ends_pure.mpr ⟨rfl, rfl⟩⟩
    rw [definition_succ]
    exact performed
  | property =>
    obtain ⟨field, rfl, ends⟩ := expected rfl
    refine ends_bind.mpr ⟨field, after, ?_, ends_pure.mpr ⟨rfl, rfl⟩⟩
    rw [property_succ]
    exact ends
  | typed =>
    obtain ⟨field, rfl, ends⟩ := expected rfl
    cases node with
    | object members =>
      refine ends_bind.mpr ⟨field, after, ?_, ends_pure.mpr ⟨rfl, rfl⟩⟩
      rw [typed_succ]
      exact ends
    | _ => exact (ends_fail.mp performed).elim

theorem ends_typed {site : Site} {node : Members} {fields : List Field} {before after : State σ} :
    (walker.carryOut (.node .typed site (.object node))).Ends before fields after ↔
      ∃ field, (walker.typed site node).Ends before field after ∧ fields = [field] := by
  simp only [carryOut, ends_bind, ends_pure]
  constructor
  · rintro ⟨field, _, ends, rfl, rfl⟩
    exact ⟨field, ends, rfl⟩
  · rintro ⟨field, ends, rfl⟩
    exact ⟨field, after, ends, rfl, rfl⟩

/-- What comes of a node at all is the same however much room there is. -/
theorem Walks.child {side : Side} {site : Site} {node : Json} {fields : List Field}
    (walks : Walks context (.node side.manner site node) before fields after) :
    ∃ child : Option Field, fields = child.toList ∧ ∃ enough, ∀ bound, enough ≤ bound →
      ((FieldTree.walker context bound).child side site node).Ends before child after := by
  obtain ⟨enough, walks⟩ := walks
  obtain ⟨child, _, rfl⟩ := ends_child.mp (walks enough (Nat.le_refl _))
  refine ⟨child, rfl, enough, fun bound room => ?_⟩
  obtain ⟨other, ends, same⟩ := ends_child.mp (walks bound room)
  cases child <;> cases other <;> cases same <;> exact ends

theorem Walks.typed {site : Site} {node : Members} {fields : List Field}
    (walks : Walks context (.node .typed site (.object node)) before fields after) :
    ∃ field, fields = [field] ∧ ∃ enough, ∀ bound, enough ≤ bound →
      ((FieldTree.walker context bound).typed site node).Ends before field after := by
  obtain ⟨enough, walks⟩ := walks
  obtain ⟨field, _, rfl⟩ := ends_typed.mp (walks enough (Nat.le_refl _))
  refine ⟨field, rfl, enough, fun bound room => ?_⟩
  obtain ⟨other, ends, same⟩ := ends_typed.mp (walks bound room)
  cases same
  exact ends

end Walker

open Resolve Walker

theorem Yields.walks {context : Context σ} {task : Task} {before after : State σ} {fields : List Field}
    (yields : Yields context task before fields after) : Walks context task before fields after := by
  induction yields with
  | @leaf manner site node field before shape =>
    apply walks_of_performs (some field) 0 (fun _ => rfl)
    intro bound _
    rw [shape]
    exact ends_pure.mpr ⟨rfl, rfl⟩
  | @group manner site node inner making fields made before after shape each makes ih =>
    obtain ⟨enough, walks⟩ := ih
    apply walks_of_performs (some made) enough (fun _ => rfl)
    intro bound room
    rw [shape]
    exact ends_bind.mpr ⟨fields, after, walks bound room, ends_orFail.mpr ⟨makes, rfl⟩⟩
  | @dropped site node inner making fields before after shape each makes ih =>
    obtain ⟨enough, walks⟩ := ih
    apply walks_of_performs none enough (fun impossible => by cases impossible)
    intro bound room
    rw [shape]
    exact ends_bind.mpr ⟨fields, after, walks bound room, ends_orFail.mpr ⟨makes, rfl⟩⟩
  | @reused site node other members target field before shape refers known =>
    apply walks_of_performs (some (field.rename other.name)) 0 (fun _ => rfl)
    intro bound _
    rw [shape]
    exact ends_definitionReference.mpr ⟨target, refers, .inl ⟨field, known, rfl, rfl⟩⟩
  | @unexpanded site node other members target before shape refers unknown held =>
    apply walks_of_performs none 0 (fun impossible => by cases impossible)
    intro bound _
    rw [shape]
    exact ends_definitionReference.mpr ⟨target, refers, .inr (.inl ⟨unknown, held, rfl, rfl⟩)⟩
  | @extracted site node other members target body fields before middle shape refers unknown free given inside ih =>
    obtain ⟨child, rfl, enough, walks⟩ := @Walks.child _ _ _ _ .definition _ _ _ ih
    have walked : Walks context (.node .definition site node) before (child.map (Field.rename other.name)).toList
        ((middle.keep target child.toList).under (middle.guard.erase target)) := by
      apply walks_of_performs _ enough (fun impossible => by cases impossible)
      intro bound room
      rw [shape]
      refine ends_definitionReference.mpr ⟨target, refers, .inr (.inr ⟨unknown, free, ?_⟩)⟩
      exact ⟨body, child, middle, given, walks bound room, rfl, rfl⟩
    cases child <;> exact walked
  | @declared manner site node other members target field taken before side shape refers known takes =>
    apply walks_of_performs (some taken) 0 (fun _ => rfl)
    intro bound _
    rw [shape, side]
    have referred := ends_propertyReference.mpr ⟨target, field, refers, known, takes, rfl⟩
    exact ends_bind.mpr ⟨taken, before, referred, ends_pure.mpr ⟨rfl, rfl⟩⟩
  | @empty site node name members combinator branches before middle shape listed taken =>
    apply walks_of_performs (some (.object name none [] [])) 0 (fun _ => rfl)
    intro bound _
    rw [shape]
    exact ends_definitionBranch.mpr ⟨branches, [], middle, listed, taken, .inl ⟨rfl, rfl, rfl⟩⟩
  | @first site node name members combinator branches branch others fields before middle after shape listed taken
      walked ih =>
    obtain ⟨child, rfl, enough, walks⟩ := @Walks.child _ _ _ _ .definition _ _ _ ih
    apply walks_of_performs child enough (fun impossible => by cases impossible)
    intro bound room
    rw [shape]
    exact ends_definitionBranch.mpr ⟨branches, _, middle, listed, taken, .inr ⟨branch, others, rfl, walks bound room⟩⟩
  | @merged manner site node name members combinator branches used fields before middle after side shape listed
      structural taken walked ih =>
    obtain ⟨enough, walks⟩ := ih
    apply walks_of_performs (some (.object name (some false) fields [])) enough (fun _ => rfl)
    intro bound room
    rw [shape, side]
    refine ends_bind.mpr ⟨_, after, ?_, ends_pure.mpr ⟨rfl, rfl⟩⟩
    refine ends_propertyBranch.mpr ⟨branches, listed, .inl ⟨structural, ?_⟩⟩
    exact ⟨used, middle, fields, taken, walks bound room, rfl⟩
  | @scalar manner site node name members combinator branches branch fields before middle after side shape listed
      scalars alternative taken walked ih =>
    obtain ⟨field, rfl, enough, walks⟩ := Walks.typed ih
    apply walks_of_performs (some field) enough (fun _ => rfl)
    intro bound room
    rw [shape, side]
    refine ends_bind.mpr ⟨_, after, ?_, ends_pure.mpr ⟨rfl, rfl⟩⟩
    refine ends_propertyBranch.mpr ⟨branches, listed, .inr ⟨scalars, alternative, ?_⟩⟩
    exact ⟨branch, middle, taken, walks bound room⟩
  | allNil => exact ⟨0, fun bound _ => ends_pure.mpr ⟨rfl, rfl⟩⟩
  | @allCons side inner rest fields others before middle after here later ihHere ihLater =>
    obtain ⟨child, rfl, enough, walks⟩ := Walks.child ihHere
    obtain ⟨enough', walks'⟩ := ihLater
    refine ⟨max enough enough', fun bound room => ?_⟩
    refine ends_bind.mpr ⟨child, middle, walks bound (by omega), ?_⟩
    have ends := walks' bound (by omega)
    cases child with
    | some field => exact ends_bind.mpr ⟨others, after, ends, ends_pure.mpr ⟨rfl, rfl⟩⟩
    | none => exact ends_bind.mpr ⟨(), _, ends_missing.mpr rfl, ends⟩
  | mergeNil => exact ⟨0, fun bound _ => ends_pure.mpr ⟨rfl, rfl⟩⟩
  | @mergeInline name branch rest fields others before middle after inline here later ihHere ihLater =>
    obtain ⟨enough, walks⟩ := ihHere
    obtain ⟨enough', walks'⟩ := ihLater
    refine ⟨max enough enough', fun bound room => ?_⟩
    refine ends_bind.mpr ⟨fields, middle, ends_contribution.mpr (.inr ⟨inline, walks bound (by omega)⟩), ?_⟩
    exact ends_bind.mpr ⟨others, after, walks' bound (by omega), ends_pure.mpr ⟨rfl, rfl⟩⟩
  | @mergeReference name branch rest target field fields others before after reference refers known adds later ih =>
    obtain ⟨enough, walks⟩ := ih
    refine ⟨enough, fun bound room => ?_⟩
    refine ends_bind.mpr ⟨fields, before, ?_, ?_⟩
    · exact ends_contribution.mpr (.inl ⟨reference, target, field, refers, known, adds, rfl⟩)
    · exact ends_bind.mpr ⟨others, after, walks bound room, ends_pure.mpr ⟨rfl, rfl⟩⟩

/-- The walk of a task ends in one way. -/
theorem Yields.unique {context : Context σ} {task : Task} {before after after' : State σ} {fields fields' : List Field}
    (first : Yields context task before fields after) (second : Yields context task before fields' after') :
    fields' = fields ∧ after' = after := by
  obtain ⟨enough, walks⟩ := first.walks
  obtain ⟨enough', walks'⟩ := second.walks
  have same := (walks' (max enough enough') (by omega)).symm.trans (walks (max enough enough') (by omega))
  cases same
  exact ⟨rfl, rfl⟩

end FieldTree
