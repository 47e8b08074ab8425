import FieldTree.Proofs.Resolution.Cached
import FieldTree.Proofs.Resolution.Visits
import Mathlib.Logic.Relation

/-! The guard is balanced. However a walk ends, it leaves the guard as it found it, and on the way nothing is kept under
a name that was under guard before. So the names under guard are at any time those of the definitions that are being
extracted, each of them once. -/

namespace FieldTree

variable {σ : Type}

/-- A step of a resolution during which these names stay under guard. Nothing is kept under any of them. -/
inductive State.Step (held : Guard) (state : State σ) : State σ → Prop
  | logged (event : Event) : Step held state (state.logged event)
  | stored {name : String} (field : Field) (free : name ∉ held) : Step held state (state.stored name field)
  | chosen (selector : σ) : Step held state { state with selector }
  | guarded {guard : Guard} (stay : held ⊆ guard) : Step held state (state.under guard)

abbrev State.Steps (held : Guard) : State σ → State σ → Prop := Relation.ReflTransGen (State.Step held)

theorem State.Step.known {held : Guard} {before after : State σ} (step : State.Step held before after) {name : String}
    (among : name ∈ held) : after.cache.get? name = before.cache.get? name := by
  cases step with
  | @stored other field free =>
    have different : other ≠ name := fun same => free (same ▸ among)
    simp only [State.stored, Entries.get?_insert, different, ite_false]
  | _ => rfl

theorem State.Steps.known {held : Guard} {before after : State σ} (steps : State.Steps held before after)
    {name : String} (among : name ∈ held) : after.cache.get? name = before.cache.get? name := by
  induction steps with
  | refl => rfl
  | tail _ step ih => exact (step.known among).trans ih

/-- The same names are under guard as before, and nothing has been kept under any of them meanwhile. -/
structure State.Restored (before after : State σ) : Prop where
  guard : after.guard = before.guard
  steps : State.Steps before.guard before after
  known : ∀ name ∈ before.guard, after.cache.get? name = before.cache.get? name

/-- From any state and however it ends, the resolution restores the guard. -/
def Resolve.Balanced {α : Type} (resolve : Resolve σ α) : Prop :=
  ∀ before : State σ, before.Restored (resolve.outcome before).2

/-- Both resolutions are in one state, which steps that leave the held names under guard have led to, and neither ends
because of two aliases that stand for each other. -/
def Pairing.balanced (held : Guard) (start : State σ) : Pairing σ σ where
  states guard first second :=
    first = second ∧ first.guard = guard ∧ held ⊆ guard ∧ State.Steps held start first
  failures failure := ∀ name target, failure ≠ .document (.semantic (.mutualAlias name target))
  guards := by
    rintro guard first second ⟨rfl, same, _⟩
    exact ⟨same, same⟩
  caches := by
    rintro guard first second ⟨rfl, _⟩
    rfl
  logged := by
    rintro guard first second event ⟨rfl, same, stay, steps⟩
    exact ⟨rfl, same, stay, steps.tail (.logged event)⟩
  stored := by
    rintro guard first second name field ⟨rfl, same, stay, steps⟩ free
    exact ⟨rfl, same, stay, steps.tail (.stored field fun among => free (stay among))⟩
  entered := by
    rintro guard first second name ⟨rfl, _, stay, steps⟩ _
    have stay' := List.subset_cons_of_subset name stay
    exact ⟨rfl, rfl, stay', steps.tail (.guarded stay')⟩
  left := by
    rintro guard before before' after after' name ⟨_, _, stay, _⟩ _ ⟨rfl, _, _, steps⟩
    exact ⟨rfl, rfl, stay, steps.tail (.guarded stay)⟩
  errors := by
    rintro error own name target ⟨⟩
    cases own
  choices := by simp
  fields := by simp

theorem Resolve.balanced_of_runs {α : Type} {resolve : Resolve σ α}
    (runs : ∀ held start, (Pairing.balanced held start).Runs held resolve resolve) : resolve.Balanced := by
  intro before
  have paired : (Pairing.balanced before.guard before).states before.guard before before :=
    ⟨rfl, rfl, List.Subset.refl _, .refl⟩
  obtain ⟨_, ⟨_, same, _, steps⟩, _⟩ := (runs before.guard before).alike (fun _ => id) paired
  exact ⟨same, steps, fun _ among => steps.known among⟩

namespace Walker
open Resolve

theorem contexts_balanced (context : Context σ) (held : Guard) (start : State σ) :
    (Pairing.balanced held start).Contexts context context True := by
  refine ⟨rfl, ?_⟩
  rintro _ guard count _ state _ ⟨rfl, same, stay, steps⟩
  refine .inr ⟨rfl, ?_, fun failure fails => ?_⟩
  · rw [outcome_choose_snd]
    exact ⟨rfl, same, stay, steps.tail (.chosen _)⟩
  · simp only [outcome, choose, ExceptT.run_mk, StateT.run] at fails
    split at fails
    · cases fails
    · cases fails
      simp [Pairing.balanced]

theorem walker_paired_balanced (context : Context σ) (bound : Nat) (held : Guard) (start : State σ) :
    Paired (Pairing.balanced held start) (fun _ _ => True) (walker context bound) (walker context bound) :=
  walker_paired (contexts_balanced context held start)
    (fun _ => ⟨fun _ _ => trivial, fun _ _ _ _ => trivial, fun _ => trivial⟩) (by simp [Pairing.balanced, Failure.tooDeep])
    bound

/-- Every call of a walker is balanced. -/
theorem walker_balanced (context : Context σ) (bound : Nat) :
    (∀ site node, ((walker context bound).definition site node).Balanced) ∧
      (∀ site node, ((walker context bound).property site node).Balanced) ∧
      ∀ site node, ((walker context bound).typed site node).Balanced := by
  have paired := walker_paired_balanced context bound
  exact ⟨fun site node => balanced_of_runs fun held start => (paired held start).definition trivial,
    fun site node => balanced_of_runs fun held start => (paired held start).property trivial,
    fun site node => balanced_of_runs fun held start => (paired held start).typed trivial⟩

end Walker

/-! The definitions that are being extracted -/

/-- The definition that a node points at. -/
def Node.aims (node : Members) : List String :=
  match target node with
  | .ok target => [target]
  | .error _ => []

theorem Node.aims_of_plain {node : Members} (plain : isReference node = false) : aims node = [] := by
  have nothing : node.given? "$ref" = none := by simpa [isReference, Members.gives] using plain
  simp [aims, target, nothing, Json.textOf]

theorem Node.nodup_aims (node : Members) : (aims node).Nodup := by
  unfold aims
  split <;> simp

/-- The definition whose body is extracted next, if the task is to follow a reference into it. -/
def Task.extracts : Task → List String
  | .node .definition site value =>
    match Shape.ofNode .definition site value with
    | .reference _ members => Node.aims members
    | _ => []
  | _ => []

theorem Task.extracts_of_property {manner : Manner} (side : manner.side = .property) (site : Site) (value : Json) :
    (Task.node manner site value).extracts = [] := by
  cases manner with
  | definition => cases side
  | _ => rfl

/-- The definition whose body is extracted for an entry of the definitions, if the entry stands for one that is not known
yet. -/
def Json.extracts (cache : Entries Field) : Json → List String
  | .object members => (Node.aims members).filter fun target => (cache.get? target).isNone
  | _ => []

/-- The tasks that are begun when a document with this root is resolved, each with the definitions that are being
extracted by then, the latest first. -/
inductive Document.Extracting (root : Members) (selector : Selector σ) (start : σ) : List String → Task → State σ → Prop
  | definition {passed name node rest before task begun} (declared : root.declarations = passed ++ (name, node) :: rest)
    (earlier : DefinesAll (context root selector) passed (State.fresh start) before)
    (begins : Begins (context root selector) name node before task begun) :
    Extracting root selector start (node.extracts before.cache) task begun
  | properties {middle} (defined : DefinesAll (context root selector) root.declarations (State.fresh start) middle) :
    Extracting root selector start [] (.all .property (outer root)) middle
  | inner {names task before task' before'} (extracting : Extracting root selector start names task before)
    (starts : Starts (context root selector) task before task' before') :
    Extracting root selector start (task.extracts ++ names) task' before'

section
variable {context : Context σ} {before : State σ}

/-- What is extracted next was free, and is put under guard. -/
theorem Starts.guard_eq {task task' : Task} {before' : State σ} (starts : Starts context task before task' before') :
    before'.guard = task.extracts ++ before.guard ∧ ∀ name ∈ task.extracts, name ∉ before.guard := by
  cases starts with
  | @inside manner _ _ _ _ _ shape => cases manner <;> simp [Task.extracts, shape]
  | body shape refers _ free _ =>
    simp only [Task.extracts, shape, Node.aims, refers, List.forall_mem_singleton]
    exact ⟨rfl, free⟩
  | first shape _ taken => simp [Task.extracts, shape, (Walker.same_of_take taken).1]
  | merge side _ _ taken => simp [Task.extracts_of_property side, (Walker.same_of_take taken).1]
  | scalar side _ _ taken => simp [Task.extracts_of_property side, (Walker.same_of_take taken).1]
  | later walked => simp [Task.extracts, State.guard_noted, walked.extends.guard]
  | afterInline _ walked => simp [Task.extracts, walked.extends.guard]
  | _ => simp [Task.extracts]

theorem Begins.guard_eq {name : String} {node : Json} {task : Task} {begun : State σ}
    (begins : Begins context name node before task begun) : begun.guard = node.extracts before.cache ++ before.guard := by
  cases begins with
  | plain plain =>
    cases node with
    | object members => simp [Json.extracts, Node.aims_of_plain (by simpa [Json.isPlain] using plain), State.logged]
    | _ => rfl
  | aliased same refers found => simp [same, Json.extracts, Node.aims, refers, found, State.logged]
  | ahead same refers unknown _ => simp [same, Json.extracts, Node.aims, refers, unknown, State.under]

theorem Json.nodup_extracts (node : Json) (cache : Entries Field) : (node.extracts cache).Nodup := by
  cases node with
  | object members => exact (Node.nodup_aims members).filter _
  | _ => exact List.nodup_nil

theorem Task.nodup_extracts (task : Task) : task.extracts.Nodup := by
  unfold extracts
  split
  · split
    · exact Node.nodup_aims _
    · exact List.nodup_nil
  · exact List.nodup_nil

theorem DefinesAll.guard {members : Members} {after : State σ} (defines : DefinesAll context members before after) :
    after.guard = before.guard := by
  induction defines with
  | nil => rfl
  | cons here _ ih => exact ih.trans here.guard

end

namespace Document

variable {root : Members} {selector : Selector σ} {start : σ} {names : List String} {task : Task} {before : State σ}

/-- The definitions that are being extracted are those under guard, and none is being extracted twice. -/
theorem Extracting.guard_eq (extracting : Extracting root selector start names task before) :
    before.guard = names ∧ names.Nodup := by
  induction extracting with
  | definition _ earlier begins =>
    rw [begins.guard_eq, earlier.guard]
    exact ⟨List.append_nil _, Json.nodup_extracts _ _⟩
  | properties defined => exact ⟨defined.guard, List.nodup_nil⟩
  | inner _ starts ih =>
    obtain ⟨same, free⟩ := starts.guard_eq
    rw [ih.1] at same free
    refine ⟨same, List.nodup_append.mpr ⟨Task.nodup_extracts _, ih.2, ?_⟩⟩
    rintro name among _ held rfl
    exact free name among held

theorem Visits.extracting (visited : Visits root selector start task before) :
    Extracting root selector start before.guard task before := by
  have some_names : ∃ names, Extracting root selector start names task before := by
    induction visited with
    | definition declared earlier begins => exact ⟨_, .definition declared earlier begins⟩
    | properties defined => exact ⟨_, .properties defined⟩
    | inner _ starts ih =>
      obtain ⟨names, extracting⟩ := ih
      exact ⟨_, .inner extracting starts⟩
  obtain ⟨names, extracting⟩ := some_names
  exact extracting.guard_eq.1 ▸ extracting

/-- However a resolution ends, the guard is balanced. Every call of a walker, from any state, leaves the names under
guard as they were, and neither writes nor changes what is kept under one of them. So no name is under guard when the pass
over the definitions comes to the next of them, whether or not it gets further; two definitions are never found to stand
for each other there; and at any time the names under guard are those of the definitions that are being extracted, none of
them twice. -/
theorem guard_balanced (root : Members) (selector : Selector σ) (start : σ) (bound : Nat) :
    (∀ site node, ((walker (context root selector) bound).definition site node).Balanced) ∧
    (∀ site node, ((walker (context root selector) bound).property site node).Balanced) ∧
    (∀ passed, passed <+: root.declarations →
      ((definitions (context root selector) (walker (context root selector) bound) passed).outcome
        (State.fresh start)).2.guard = []) ∧
    (∀ document, Document.root document = .ok root → ∀ name target,
      (document.resolveWithin bound selector start).result ≠ .error (.document (.semantic (.mutualAlias name target)))) ∧
    (∀ task before, Visits root selector start task before → Extracting root selector start before.guard task before) ∧
    ∀ names task before, Extracting root selector start names task before → before.guard = names ∧ names.Nodup := by
  obtain ⟨definition, property, _⟩ := Walker.walker_balanced (context root selector) bound
  have paired := Walker.walker_paired_balanced (context root selector) bound [] (State.fresh start)
  have contexts := Walker.contexts_balanced (context root selector) [] (State.fresh start)
  have begins : (context root selector).Begins fun _ _ => True := ⟨fun _ _ => trivial, fun _ _ _ => trivial⟩
  have fresh : (Pairing.balanced [] (State.fresh start)).states [] (State.fresh start) (State.fresh start) :=
    ⟨rfl, rfl, List.Subset.refl _, .refl⟩
  refine ⟨definition, property, fun passed _ => ?_, fun document rooted => ?_, fun _ _ visited => visited.extracting,
    fun _ _ _ extracting => extracting.guard_eq⟩
  · have runs := definitions_runs paired contexts begins passed fun _ _ => trivial
    obtain ⟨_, ⟨_, same, _⟩, _⟩ := runs.alike (fun _ => id) fresh
    exact same
  · rw [resolveWithin_of_root rooted]
    intro name target failed
    have runs := schema_runs paired contexts begins root fun _ _ => trivial
    obtain ⟨_, _, fails⟩ := runs.alike (fun _ => id) fresh
    exact fails _ failed name target rfl

/-- Two objects, each with a property that refers to the other. -/
def tennis : Members :=
  [("definitions", .object
    [("Player", .object [("properties", .object [("partner", .object [("$ref", .string "#/definitions/Rival")])])]),
     ("Rival", .object [("properties", .object [("partner", .object [("$ref", .string "#/definitions/Player")])])])])]

/-- For the player the rival is extracted, and for the rival the player once more; there it ends. -/
theorem tennis_balanced : ∃ task before, Extracting tennis Selector.first () ["Player", "Rival"] task before ∧
    before.guard = ["Player", "Rival"] ∧ ["Player", "Rival"].Nodup ∧
    (∀ site node, (((walker (context tennis Selector.first) 20).definition site node).outcome before).2.guard =
      ["Player", "Rival"]) ∧
    ((definitions (context tennis Selector.first) (walker (context tennis Selector.first) 20)
      (tennis.declarations.take 1)).outcome (State.fresh ())).2.guard = [] ∧
    ((Document.value (.object tennis)).resolveWithin 20 Selector.first ()).result ≠
      .error (.document (.semantic (.mutualAlias "Player" "Rival"))) := by
  obtain ⟨definition, _, passes, never, _, extracts⟩ := guard_balanced tennis Selector.first () 20
  have player : Extracting tennis Selector.first () _ _ _ :=
    @Extracting.definition _ _ _ _ [] _ _ _ _ _ _ rfl .nil (.plain rfl)
  have rival := ((player.inner (.inside rfl)).inner .here).inner (.body rfl rfl rfl (by decide) rfl)
  have again := ((rival.inner (.inside rfl)).inner .here).inner (.body rfl rfl rfl (by decide) rfl)
  obtain ⟨guarded, distinct⟩ := extracts ["Player", "Rival"] _ _ again
  refine ⟨_, _, again, guarded, distinct, fun site node => ?_, passes _ (List.take_prefix 1 _), never _ rfl _ _⟩
  exact (definition site node _).guard.trans guarded

end Document
end FieldTree
