import FieldTree.Proofs.Resolution.Failures
import FieldTree.Proofs.Resolution.Moments

/-! Definitions that are nothing but references to each other, in a circle. Whoever comes to one of them, and under
whatever guard, nothing comes of it, so none is ever cached; and the pass over the definitions fails at the first. -/

namespace FieldTree

variable {σ : Type}

/-- The node is nothing but a reference to the definition of this name. -/
def Json.DefersTo (node : Json) (target : String) : Prop :=
  ∃ members, node = .object members ∧ Node.hasType members = false ∧ Node.isReference members = true ∧
    Node.target members = .ok target

def Members.Defers (definitions : Members) (name target : String) : Prop :=
  ∃ node, definitions.get? name = some node ∧ node.DefersTo target

/-- Every name in the circle stands for another one in it. -/
def Members.Circular (definitions : Members) (circle : String → Prop) : Prop :=
  ∀ name, circle name → ∃ target, circle target ∧ definitions.Defers name target

/-- No name of the circle is cached. -/
def Entries.Avoids (cache : Entries Field) (circle : String → Prop) : Prop :=
  ∀ name, circle name → cache.get? name = none

/-- States that avoid the circle, and any failure. -/
def Conduct.avoiding (circle : String → Prop) : Conduct σ where
  states state := state.cache.Avoids circle
  failures _ := True
  logged := fun _ avoids => avoids
  under := fun _ avoids => avoids
  fails := fun _ => trivial

section
variable {context : Context σ} {circle : String → Prop}

/-- What stands for a name of the circle is barren. -/
theorem Members.Circular.permits (circular : context.definitions.Circular circle)
    (distinct : Entries.Distinct context.definitions) :
    (Conduct.avoiding circle).Permits context fun node => ∃ target, circle target ∧ node.DefersTo target := by
  constructor
  · intro count _ state avoids
    refine ⟨?_, ?_⟩
    · cases ((Resolve.choose context count).outcome state).1 <;> trivial
    · rw [Resolve.outcome_choose_snd]
      exact avoids
  · intro name node among fruitful state field avoids other member
    have apart : name ≠ other := by
      rintro rfl
      obtain ⟨target, inside, node', known, defers⟩ := circular name member
      cases known.symm.trans (distinct.get?_of_mem among)
      exact fruitful ⟨target, inside, defers⟩
    simp only [State.stored, Entries.get?_insert, apart, ite_false]
    exact avoids other member
  · rintro _ ⟨target, _, members, same, untyped, reference, refers⟩
    exact ⟨members, target, same, untyped, reference, refers⟩
  · rintro members target found ⟨target', inside, _, same, _, _, refers'⟩ refers ⟨state, avoids, rfl⟩
    cases same
    cases refers.symm.trans refers'
    exact avoids target inside
  · rintro members target body ⟨target', inside, _, same, _, _, refers'⟩ refers given
    cases same
    cases refers.symm.trans refers'
    obtain ⟨next, inside', node, known, defers⟩ := circular target inside
    cases known.symm.trans (Members.get?_of_given? given)
    exact ⟨next, inside', defers⟩

end

/-! The states at which tasks begin. -/

namespace Conduct.Permits
open Document

variable {conduct : Conduct σ} {context : Context σ} {barren : Json → Prop} {before : State σ}

theorem starts (permits : conduct.Permits context barren) {task task' : Task} {before' : State σ}
    (starts : Starts context task before task' before') (within : conduct.states before) : conduct.states before' := by
  cases starts with
  | body => exact conduct.under _ within
  | first _ _ taken => exact ((permits.take _ _ _).ends taken within).2
  | merge _ _ _ taken => exact ((permits.take _ _ _).ends taken within).2
  | scalar _ _ _ taken => exact ((permits.take _ _ _).ends taken within).2
  | @later _ inner _ _ fields middle walked =>
    have after := permits.yields walked within
    cases fields with
    | nil =>
      cases missing : inner.missing with
      | none => simpa only [State.noted, missing, Option.elim] using after
      | some event => simpa only [State.noted, missing, Option.elim] using conduct.logged event after
    | cons => exact after
  | afterInline _ walked => exact permits.yields walked within
  | _ => exact within

theorem begins {name : String} {node : Json} {task : Task} {begun : State σ}
    (begins : Begins context name node before task begun) (within : conduct.states before) : conduct.states begun := by
  cases begins with
  | ahead => exact conduct.under _ (conduct.logged _ within)
  | _ => exact conduct.logged _ within

theorem visits {root : Members} {selector : Selector σ} {start : σ}
    (permits : conduct.Permits (Document.context root selector) barren) (fresh : conduct.states (State.fresh start))
    {task : Task} (visited : Visits root selector start task before) : conduct.states before := by
  induction visited with
  | @definition passed name node rest before task begun declared earlier begun_by =>
    have among : ∀ entry ∈ passed, entry ∈ root.declarations := fun entry member => by
      rw [declared]
      exact List.mem_append_left _ member
    exact begins begun_by (permits.definesAll among earlier fresh)
  | properties defined => exact permits.definesAll (fun _ among => among) defined fresh
  | inner _ starts_here ih => exact permits.starts starts_here ih

end Conduct.Permits

namespace Document
open Resolve Walker

section
variable {root : Members} {selector : Selector σ} {start : σ} {circle : String → Prop}

/-- At no moment of the resolution is a name of the circle cached. -/
theorem Later.avoids (circular : root.declarations.Circular circle) (distinct : Entries.Distinct root.declarations)
    {first last : Entries Field} (later : Later root selector start first last) (avoids : first.Avoids circle) :
    last.Avoids circle := by
  have permits := @Members.Circular.permits σ (context root selector) circle circular distinct
  have fresh : (State.fresh start).cache.Avoids circle := fun _ _ => rfl
  have turned : ∀ {passed name node rest before after},
      root.declarations = passed ++ (name, node) :: rest →
      DefinesAll (context root selector) passed (State.fresh start) before →
      Defines (context root selector) name node before after → after.cache.Avoids circle := by
    intro passed name node rest before after declared earlier defines
    have among : ∀ entry ∈ passed ++ [(name, node)], entry ∈ root.declarations := by
      intro entry member
      rw [declared, List.append_cons]
      exact List.mem_append_left _ member
    exact permits.definesAll among (earlier.append (.cons defines .nil)) fresh
  induction later with
  | same => exact avoids
  | trans _ _ ihBefore ihAfter => exact ihAfter (ihBefore avoids)
  | turn declared earlier defines => exact turned declared earlier defines
  | closing declared earlier _ _ defines => exact turned declared earlier defines
  | starting visited starts => exact permits.starts starts (permits.visits fresh visited)
  | ending visited yields => exact permits.yields yields (permits.visits fresh visited)
  | outward visited _ _ outer => exact permits.yields outer (permits.visits fresh visited)

end

section
variable {context : Context σ} {walker : Walker σ}

/-- The turn of a name of the circle fails, since the name that it stands for is not cached, and only a reference. -/
theorem outcome_definition_of_circular {circle : String → Prop} (circular : context.definitions.Circular circle)
    {node : Json} {target : String} (inside : circle target) (defers : node.DefersTo target) (name : String)
    {before : State σ} (avoids : before.cache.Avoids circle) :
    ((definition context walker name node).outcome before).1 =
      .error (.document (.semantic (.unresolvedAlias name target))) := by
  obtain ⟨members, rfl, _, reference, refers⟩ := defers
  obtain ⟨_, _, _, known, body, rfl, _, reference', _⟩ := circular target inside
  have given : context.definitions.given? target = some (.object body) := by
    simp only [Members.given?, known]
  simp only [definition, aliasDefinition, reference, reference', refers, given, orFail, ite_true, pure_bind,
    outcome_bind, outcome_log, outcome_cached?, State.logged, avoids target inside, Option.isSome_none,
    Bool.false_eq_true, ite_false, outcome_fail]

end

/-- A turn that is bound to fail once the entries before it have had theirs ends the resolution. -/
theorem run_of_turn {root : Members} {selector : Selector σ} {start : σ} {bound : Nat} {passed rest : Members}
    {name : String} {node : Json} (declared : root.declarations = passed ++ (name, node) :: rest) {failure : Failure}
    (fails : ∀ after, (definitions (context root selector) (walker (context root selector) bound) passed).Ends
      (State.fresh start) () after → ((definition (context root selector) (walker (context root selector) bound)
        name node).outcome after).1 = .error failure) :
    (run bound selector start root).1 =
      match ((definitions (context root selector) (walker (context root selector) bound) passed).outcome
        (State.fresh start)).1 with
      | .ok () => .error failure
      | .error earlier => .error earlier := by
  have whole : ∀ earlier, ((definitions (context root selector) (walker (context root selector) bound)
      (passed ++ (name, node) :: rest)).outcome (State.fresh start)).1 = .error earlier →
      (run bound selector start root).1 = .error earlier := by
    rw [← declared]
    exact fun _ failed => outcome_bind_of_error failed
  rw [definitions_append] at whole
  cases ended : (definitions (context root selector) (walker (context root selector) bound) passed).outcome
      (State.fresh start) with
  | mk result after =>
    cases result with
    | error earlier => exact whole earlier (outcome_bind_of_error (by rw [ended]))
    | ok =>
      refine whole failure ?_
      rw [outcome_bind, ended]
      exact outcome_bind_of_error (fails after ended)

/-- Definitions that stand for each other in a circle are never cached, whatever leads to them, and the document is
rejected: if the entries before the first of them resolve, because of a missing definition. -/
theorem circle_rejected {document : Document} {root : Members} (wellFormed : document.WellFormed)
    (rooted : document.root = .ok root) {k : Nat} {names : Fin (k + 1) → String}
    (cycle : ∀ i, root.declarations.Defers (names i) (names (i + 1))) (selector : Selector σ) (start : σ) :
    (∀ i cache, Later root selector start [] cache → cache.get? (names i) = none) ∧
    (∀ i bound, (run bound selector start root).2.cache.get? (names i) = none) ∧
    (∀ bound schema, (document.resolveWithin bound selector start).result ≠ .ok schema) ∧
    ∃ i passed node rest, root.declarations = passed ++ (names i, node) :: rest ∧
      (∀ j, names j ∉ passed.map Prod.fst) ∧
      (SemanticError.unresolvedAlias (names i) (names (i + 1))).kind = .missingDefinition ∧
      ∀ bound, ((definitions (context root selector) (walker (context root selector) bound) passed).outcome
          (State.fresh start)).1 = .ok () →
        (document.resolveWithin bound selector start).result =
          .error (.document (.semantic (.unresolvedAlias (names i) (names (i + 1))))) := by
  classical
  have distinct := distinct_declarations wellFormed
  rw [declarations_of_root rooted] at distinct
  have circular : root.declarations.Circular fun name => ∃ i, names i = name := by
    rintro _ ⟨i, rfl⟩
    exact ⟨names (i + 1), ⟨i + 1, rfl⟩, cycle i⟩
  have permits := @Members.Circular.permits σ (context root selector) _ circular distinct
  have fresh : (State.fresh start).cache.Avoids fun name => ∃ i, names i = name := fun _ _ => rfl
  -- The first entry of the circle, in the order of the document.
  obtain ⟨node₀, known₀, _⟩ := cycle 0
  have some_entry : (root.declarations.find? fun entry => ∃ i, names i = entry.1).isSome :=
    List.find?_isSome.mpr ⟨_, Entries.mem_of_get?_eq_some known₀, by simp⟩
  obtain ⟨⟨name, node⟩, found⟩ := Option.isSome_iff_exists.mp some_entry
  obtain ⟨inside, passed, rest, declared, before⟩ := List.find?_eq_some_iff_append.mp found
  obtain ⟨i, rfl⟩ : ∃ i, names i = name := by simpa using inside
  have among : ∀ entry ∈ passed, entry ∈ root.declarations := by
    rw [declared]
    exact fun entry member => List.mem_append_left _ member
  obtain ⟨node', known, defers⟩ := cycle i
  have here : root.declarations.get? (names i) = some node :=
    distinct.get?_of_mem (declared ▸ List.mem_append_right _ List.mem_cons_self)
  cases here.symm.trans known
  have ended : ∀ bound, (run bound selector start root).1 =
      match ((definitions (context root selector) (walker (context root selector) bound) passed).outcome
        (State.fresh start)).1 with
      | .ok () => .error (.document (.semantic (.unresolvedAlias (names i) (names (i + 1)))))
      | .error earlier => .error earlier := by
    intro bound
    refine run_of_turn declared fun after ends => ?_
    have avoids := (((permits.walks bound).defineAll permits among).ends ends fresh).2
    exact outcome_definition_of_circular circular ⟨i + 1, rfl⟩ defers _ avoids
  refine ⟨fun j cache later => ?_, fun j bound => ?_, fun bound schema resolved => ?_, i, passed, node, rest, declared,
    fun j member => ?_, rfl, fun bound passes => ?_⟩
  · exact later.avoids circular distinct (fun _ _ => rfl) _ ⟨j, rfl⟩
  · exact (permits.run fresh bound).2 _ ⟨j, rfl⟩
  · rw [resolveWithin_of_root rooted] at resolved
    have failed := ended bound
    split at failed
    · cases failed.symm.trans resolved
    · cases failed.symm.trans resolved
  · obtain ⟨entry, earlier, same⟩ := List.mem_map.mp member
    have outside := before entry earlier
    simp [same] at outside
  · rw [resolveWithin_of_root rooted]
    simpa only [passes] using ended bound

/-- Two definitions that stand for each other, after one that leads to them. -/
def pingPong : Members :=
  [("definitions", .object
    [("Game", .object [("type", .string "object"), ("properties", .object
        [("serve", .object [("$ref", .string "#/definitions/Ping")])])]),
     ("Ping", .object [("$ref", .string "#/definitions/Pong")]),
     ("Pong", .object [("$ref", .string "#/definitions/Ping")])])]

/-- The game is resolved without them, and then the first of them ends the resolution. -/
theorem pingPong_rejected : (Document.value (.object pingPong)).WellFormed ∧
    pingPong.declarations.Defers "Ping" "Pong" ∧ pingPong.declarations.Defers "Pong" "Ping" ∧
    (∀ cache, Later pingPong Selector.first () [] cache → cache.get? "Ping" = none ∧ cache.get? "Pong" = none) ∧
    ((Document.value (.object pingPong)).resolveWithin 20 Selector.first ()).result =
      .error (.document (.semantic (.unresolvedAlias "Ping" "Pong"))) := by
  have wellFormed : (Document.value (.object pingPong)).WellFormed := by
    unfold Document.WellFormed
    decide
  have ping : pingPong.declarations.Defers "Ping" "Pong" := ⟨_, rfl, _, rfl, rfl, rfl, rfl⟩
  have pong : pingPong.declarations.Defers "Pong" "Ping" := ⟨_, rfl, _, rfl, rfl, rfl, rfl⟩
  let names : Fin 2 → String := fun i => if i = 0 then "Ping" else "Pong"
  have cycle : ∀ i, pingPong.declarations.Defers (names i) (names (i + 1)) := by
    intro i
    match i with
    | 0 => exact ping
    | 1 => exact pong
  have rejected := circle_rejected wellFormed rfl cycle Selector.first ()
  have never := rejected.1
  exact ⟨wellFormed, ping, pong, fun cache later => ⟨never 0 cache later, never 1 cache later⟩, rfl⟩

end Document
end FieldTree
