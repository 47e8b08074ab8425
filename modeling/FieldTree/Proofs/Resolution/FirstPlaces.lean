import FieldTree.Proofs.Resolution.Choiceless
import FieldTree.Proofs.Resolution.Definitions
import FieldTree.Proofs.Resolution.Nesting

/-! Which place asks for a definition first. Where there are no alternatives this can be told from the references
alone: the body of a definition is walked for the first place that asks, and all later ones find it in the cache. -/

namespace FieldTree

variable {σ : Type}

/-- The places that ask first, after the walk of a node, for the definitions that were met so far. -/
def Members.places (definitions : Members) : Nat → Site → Json → Entries Site → Entries Site
  | 0, _, _, known => known
  | rounds + 1, site, node, known =>
    match Shape.ofNode .definition site node with
    | .group inner _ => inner.foldl (fun known one => places definitions rounds one.site one.node known) known
    | .reference other members =>
      match Node.target members with
      | .ok target =>
        if known.has target then known
        else
          match definitions.given? target with
          | some (.object body) =>
            (places definitions rounds { other with name := some target } (.object body) known).insert target
              { other with name := some target }
          | _ => known
      | .error _ => known
    | .combination name members combinator =>
      match Node.branches members combinator name with
      | .ok (branch :: _) => places definitions rounds (.named name) (.object branch) known
      | _ => known
    | _ => known

/-- The pass over the definitions asks for each of them itself. -/
def Members.placesAfter (definitions : Members) (rounds : Nat) (known : Entries Site) (entry : String × Json) :
    Entries Site :=
  let walked := definitions.places rounds (.named (some entry.1)) entry.2 known
  if walked.has entry.1 then walked else walked.insert entry.1 (.named (some entry.1))

def Document.firstPlaces (document : Document) : Entries Site :=
  document.declarations.foldl (document.declarations.placesAfter document.limit) []

/-- A task among the properties asks for no body. -/
def Task.places (definitions : Members) (rounds : Nat) : Task → Entries Site → Entries Site
  | .node .definition site value, known => definitions.places rounds site value known
  | .all .definition inner, known =>
    inner.foldl (fun known one => definitions.places rounds one.site one.node known) known
  | _, known => known

/-- There are rounds enough to walk the task, and nothing to choose on the way. -/
def Task.Within (definitions : Members) (guard : Guard) (rounds : Nat) : Task → Prop
  | .node .definition _ value => guard.need definitions value ≤ rounds ∧ value.Choiceless
  | .all .definition inner => ∀ one ∈ inner, guard.need definitions one.node ≤ rounds ∧ one.node.Choiceless
  | _ => True

/-- The cached fields are what the bodies come to at the places that asked first. -/
structure Entries.Placed (cache : Entries Field) (definitions : Members) (answer : Int → Except ChoiceError Int)
    (known : Entries Site) : Prop where
  unknown : ∀ name, cache.get? name = none → known.get? name = none
  settled : ∀ name field, cache.get? name = some field → ∃ place body, known.get? name = some place ∧
    place.name = some name ∧ definitions.given? name = some (.object body) ∧
      Settles answer cache.knows (.node .definition place (.object body)) [field]

section
variable {definitions : Members} {answer : Int → Except ChoiceError Int} {known : Entries Site} {guard : Guard}

theorem Entries.Placed.has {cache : Entries Field} (placed : cache.Placed definitions answer known) (name : String) :
    known.has name = (cache.get? name).isSome := by
  unfold Entries.has
  cases found : cache.get? name with
  | none =>
    rw [placed.unknown name found]
    rfl
  | some field =>
    obtain ⟨place, _, there, _⟩ := placed.settled name field found
    rw [there]
    rfl

theorem Entries.Placed.keep {state : State σ} {name : String} {place : Site} {body : Members} {field : Field}
    (placed : state.cache.Placed definitions answer known) (new : state.cache.get? name = none)
    (named : place.name = some name) (given : definitions.given? name = some (.object body))
    (settles : Settles answer state.cache.knows (.node .definition place (.object body)) [field]) :
    (state.keep name [field]).cache.Placed definitions answer (known.insert name place) := by
  have grows : ∀ other found, state.cache.knows other found → (state.keep name [field]).cache.knows other found := by
    intro other found there
    have different : name ≠ other := by
      intro same
      rw [← same] at there
      cases new.symm.trans there
    exact (State.get?_keep state name [field] different).trans there
  constructor
  · intro other absent
    by_cases same : name = other
    · subst same
      cases (State.get?_keep_self state name field []).symm.trans absent
    · rw [State.get?_keep state name [field] same] at absent
      rw [Entries.get?_insert, if_neg same]
      exact placed.unknown other absent
  · intro other found there
    by_cases same : name = other
    · subst same
      obtain rfl := Option.some.inj ((State.get?_keep_self state name field []).symm.trans there)
      exact ⟨place, body, by simp, named, given, settles.mono fun target _ => grows target⟩
    · rw [State.get?_keep state name [field] same] at there
      obtain ⟨place', body', stored, named', given', settles'⟩ := placed.settled other found there
      refine ⟨place', body', ?_, named', given', settles'.mono fun target _ => grows target⟩
      rw [Entries.get?_insert, if_neg same, stored]

theorem Guard.exists_rounds {rounds : Nat} {node : Json} (fits : guard.need definitions node ≤ rounds) :
    ∃ fewer, rounds = fewer + 1 := by
  unfold Guard.need at fits
  exact Nat.exists_eq_succ_of_ne_zero (by omega)

theorem Task.Within.part {rounds : Nat} {site : Site} {members : Members} {part : Json}
    (within : Task.Within definitions guard (rounds + 1) (.node .definition site (.object members)))
    (inside : part ∈ Json.partsOfMembers members) : guard.need definitions part ≤ rounds ∧ part.Choiceless := by
  have less : guard.need definitions part < guard.need definitions (.object members) := Guard.need_part_lt inside
  have fits := within.1
  exact ⟨by omega, Json.Choiceless.inherited.inside within.2 inside⟩

theorem Task.Within.body {rounds : Nat} {site place : Site} {members body : Members} {target : String}
    (within : Task.Within definitions guard (rounds + 1) (.node .definition site (.object members)))
    (free : target ∉ guard) (given : definitions.given? target = some (.object body))
    (choiceless : (Json.object body).Choiceless) :
    Task.Within definitions (target :: guard) rounds (.node .definition place (.object body)) := by
  have less := Guard.need_body_lt free given (.object members)
  have fits := within.1
  exact ⟨by omega, choiceless⟩

/-- Without alternatives all branches hold together. -/
theorem Json.Choiceless.allOf {members : Members} (choiceless : (Json.object members).Choiceless)
    {combinator : Combinator}
    (gives : members.gives combinator.keyword = true) : combinator = .allOf := by
  have none := choiceless _ (Json.self_mem_parts _)
  simp only [Json.offersChoice, Bool.or_eq_false_iff] at none
  cases combinator with
  | allOf => rfl
  | anyOf => cases none.1.symm.trans gives
  | oneOf => cases none.2.symm.trans gives

end

/-- The induction follows the walk; only the walk of a body that is entered adds a place. -/
theorem Yields.placed {context : Context σ} {answer : Int → Except ChoiceError Int}
    (answers : context.selector.Answers answer) (bodies : ∀ entry ∈ context.definitions, entry.2.Choiceless)
    (acyclic : ∀ name, Acyclic context.definitions name) {passed : List String} {task : Task} {before after : State σ}
    {fields : List Field} (yields : Yields context task before fields after) {rounds : Nat} {known : Entries Site}
    (behind : task.Behind context.definitions before.guard)
    (within : task.Within context.definitions before.guard rounds)
    (settled : before.cache.Settled context.definitions answer passed)
    (placed : before.cache.Placed context.definitions answer known) :
    after.cache.Placed context.definitions answer (task.places context.definitions rounds known) := by
  induction yields generalizing rounds known with
  | @leaf manner site node field before shape =>
    cases manner with
    | definition =>
      obtain ⟨fewer, rfl⟩ := Guard.exists_rounds within.1
      simp only [Task.places, Members.places, shape]
      exact placed
    | _ => exact placed
  | @group manner site node inner making fields made before after shape each makes ih =>
    have leads := Task.leads_group shape
    cases manner with
    | definition =>
      obtain ⟨fewer, rfl⟩ := Guard.exists_rounds within.1
      obtain ⟨members, _, rfl, _, form⟩ := Shape.ofNode_object shape (by simp)
      simp only [Task.places, Members.places, shape]
      exact ih (behind.leads leads) (fun one among => within.part (form.inside one among)) settled placed
    | _ => exact @ih rounds known (behind.leads leads) trivial settled placed
  | @dropped site node inner making fields before after shape each makes ih =>
    have leads := Task.leads_group shape
    obtain ⟨fewer, rfl⟩ := Guard.exists_rounds within.1
    obtain ⟨members, _, rfl, _, form⟩ := Shape.ofNode_object shape (by simp)
    simp only [Task.places, Members.places, shape]
    exact ih (behind.leads leads) (fun one among => within.part (form.inside one among)) settled placed
  | @reused site node other members target field before shape refers cached =>
    obtain ⟨fewer, rfl⟩ := Guard.exists_rounds within.1
    have has : known.has target = true := by rw [placed.has, cached]; rfl
    simp only [Task.places, Members.places, shape, refers, has, ite_true]
    exact placed
  | @unexpanded site node other members target before shape refers unknown held =>
    have among := Task.mem_references shape refers
    exact absurd (behind rfl target held target among) (acyclic target).irreflexive
  | @extracted site node other members target body fields before middle shape refers unknown free given inside ih =>
    obtain ⟨fewer, rfl⟩ := Guard.exists_rounds within.1
    obtain ⟨rfl, reference, _⟩ := Shape.ofNode_reference shape
    have among := Task.mem_references shape refers
    have has : known.has target = false := by rw [placed.has, unknown]; rfl
    simp only [Task.places, Members.places, shape, refers, has, given, Bool.false_eq_true, ite_false]
    have entered := behind.enter among given { other with name := some target }
    have walked := ih entered (within.body free given (bodies _ (Members.mem_of_given? given))) settled placed
    have made := (inside.settles answers entered settled).2 ((acyclic target).body given _)
    obtain ⟨field, rfl, _⟩ := made.named
    have new : middle.cache.get? target = none := (inside.extends.held target List.mem_cons_self).trans unknown
    exact walked.keep new rfl given made
  | @declared manner _ _ _ _ _ _ _ _ side =>
    cases manner with
    | definition => cases side
    | _ => exact placed
  | @empty site node name members combinator branches before middle shape listed taken =>
    obtain ⟨fewer, rfl⟩ := Guard.exists_rounds within.1
    obtain ⟨rfl, gives, _⟩ := Shape.ofNode_combination shape
    obtain rfl := within.2.allOf gives
    obtain ⟨rfl, rfl⟩ := Resolve.ends_pure.mp taken
    simp only [Task.places, Members.places, shape, listed]
    exact placed
  | @first site node name members combinator branches branch others fields before middle after shape listed
      taken _ ih =>
    have leads := Task.leads_branch shape listed (Combinator.used_of_take answers taken) .definition (.named name) rfl
    obtain ⟨fewer, rfl⟩ := Guard.exists_rounds within.1
    obtain ⟨rfl, gives, _⟩ := Shape.ofNode_combination shape
    obtain rfl := within.2.allOf gives
    obtain ⟨rfl, rfl⟩ := Resolve.ends_pure.mp taken
    simp only [Task.places, Members.places, shape, listed]
    exact ih (behind.leads leads) (within.part (Node.mem_parts_of_branches listed List.mem_cons_self)) settled placed
  | @merged manner _ _ _ _ _ _ _ _ _ _ _ side _ _ _ taken _ ih =>
    rw [(Walker.same_of_take taken).2] at ih
    cases manner with
    | definition => cases side
    | _ => exact @ih rounds known (.of_property rfl) trivial settled placed
  | @scalar manner _ _ _ _ _ _ _ _ _ _ _ side _ _ _ _ taken _ ih =>
    rw [(Walker.same_of_take taken).2] at ih
    cases manner with
    | definition => cases side
    | _ => exact @ih rounds known (.of_property rfl) trivial settled placed
  | @allNil side => cases side <;> exact placed
  | @allCons side inner rest fields others before middle after here later ihHere ihLater =>
    have kept := (here.settles answers (behind.leads Task.leads_here) settled).1
    rw [State.guard_noted, State.cache_noted, here.extends.guard] at ihLater
    cases side with
    | definition =>
      have placed' := ihHere (behind.leads Task.leads_here) (within inner List.mem_cons_self) settled placed
      exact ihLater (behind.leads Task.leads_later)
        (fun one among => within one (List.mem_cons_of_mem _ among)) kept placed'
    | property =>
      have placed' := @ihHere rounds known (behind.leads Task.leads_here) trivial settled placed
      exact @ihLater rounds known (behind.leads Task.leads_later) trivial kept placed'
  | mergeNil => exact placed
  | mergeInline _ here _ ihHere ihLater =>
    have kept := (here.settles answers (.of_property rfl) settled).1
    exact @ihLater rounds known (.of_property rfl) trivial kept
      (@ihHere rounds known (.of_property rfl) trivial settled placed)
  | mergeReference _ _ _ _ _ ih => exact @ih rounds known (.of_property rfl) trivial settled placed

section
variable {context : Context σ} {answer : Int → Except ChoiceError Int} {rounds : Nat} {passed : List String}
  {before after : State σ} {known : Entries Site}

/-- A plain definition is placed where it was first asked for, by its turn at the latest. -/
theorem Defines.placed (answers : context.selector.Answers answer)
    (bodies : ∀ entry ∈ context.definitions, entry.2.Choiceless) (acyclic : ∀ name, Acyclic context.definitions name)
    {name : String} {node : Json} (defines : Defines context name node before after) (plain : node.isPlain = true)
    (found : context.definitions.get? name = some node) (within : Guard.need [] context.definitions node ≤ rounds)
    (guard : before.guard = []) (settled : before.cache.Settled context.definitions answer passed)
    (placed : before.cache.Placed context.definitions answer known) :
    after.cache.Placed context.definitions answer (context.definitions.placesAfter rounds known (name, node)) := by
  have given : ∀ members, node = .object members → context.definitions.given? name = some (.object members) := by
    rintro members rfl
    simp only [Members.given?, found]
  have choiceless : node.Choiceless := bodies _ (Entries.mem_of_get?_eq_some found)
  have walks : ∀ {fields after}, Yields context (.node .definition (.named (some name)) node)
    (before.logged (.resolving name))
      fields after → after.cache.Placed context.definitions answer
        (context.definitions.places rounds (.named (some name)) node known) := by
    intro fields after walked
    have free : (before.logged (.resolving name)).guard = [] := guard
    have fits : Task.Within context.definitions (before.logged (.resolving name)).guard rounds
        (.node .definition (.named (some name)) node) := by
      rw [free]
      exact ⟨within, choiceless⟩
    exact walked.placed answers bodies acyclic (.unguarded free) fits settled placed
  have direct : ∀ {members}, node = .object members → Node.isReference members ≠ true := by
    rintro members rfl reference
    simp [Json.isPlain, reference] at plain
  unfold Members.placesAfter
  cases defines with
  | vanished _ walked =>
    obtain ⟨_, comes⟩ := walked.settles_plain answers given guard settled
    obtain ⟨_, _, impossible, _⟩ := comes (acyclic name)
    cases impossible
  | kept _ walked there =>
    have placed' := walks walked
    have has : (context.definitions.places rounds (.named (some name)) node known).has name = true :=
      (placed'.has name).trans (by rw [there]; rfl)
    simp only [has, ite_true]
    exact placed'
  | @stored field after _ walked new =>
    have has : (context.definitions.places rounds (.named (some name)) node known).has name = false :=
      ((walks walked).has name).trans (by rw [new]; rfl)
    obtain ⟨_, comes⟩ := walked.settles_plain answers given guard settled
    obtain ⟨body, made, same, source, settles⟩ := comes (acyclic name)
    obtain rfl := (List.cons.inj same).1
    simp only [has, Bool.false_eq_true, ite_false]
    cases source with
    | own given => exact (walks walked).keep new rfl given settles
    | behind _ there reference =>
      have same : node = .object _ := Option.some.inj (found.symm.trans (Members.get?_of_given? there))
      exact absurd reference (direct same)
  | aliased same reference => exact absurd reference (direct same)
  | ahead same reference => exact absurd reference (direct same)

theorem DefinesAll.placed (answers : context.selector.Answers answer) (unmixed : context.definitions.Unmixed)
    (bodies : ∀ entry ∈ context.definitions, entry.2.Choiceless) (acyclic : ∀ name, Acyclic context.definitions name)
    {members : Members} (defines : DefinesAll context members before after)
    (plain : ∀ entry ∈ members, entry.2.isPlain = true)
    (found : ∀ entry ∈ members, context.definitions.get? entry.1 = some entry.2) (distinct : Entries.Distinct members)
    (new : ∀ name ∈ members.map Prod.fst, name ∉ passed)
    (within : ∀ entry ∈ members, Guard.need [] context.definitions entry.2 ≤ rounds) (guard : before.guard = [])
    (settled : before.cache.Settled context.definitions answer passed)
    (placed : before.cache.Placed context.definitions answer known) :
    after.cache.Placed context.definitions answer (members.foldl (context.definitions.placesAfter rounds) known) := by
  induction defines generalizing passed known with
  | nil => exact placed
  | @cons name node rest before middle after here _ ih =>
    obtain ⟨plainHere, plain⟩ := List.forall_mem_cons.mp plain
    obtain ⟨foundHere, found⟩ := List.forall_mem_cons.mp found
    obtain ⟨withinHere, within⟩ := List.forall_mem_cons.mp within
    obtain ⟨different, distinct⟩ := List.nodup_cons.mp distinct
    have reached := (here.reached answers unmixed foundHere (new name List.mem_cons_self) guard settled).1
    have later : ∀ other ∈ rest.map Prod.fst, other ∉ name :: passed := by
      intro other among impossible
      rcases List.mem_cons.mp impossible with rfl | earlier
      · exact different among
      · exact new other (List.mem_cons_of_mem _ among) earlier
    have placed' := here.placed answers bodies acyclic plainHere foundHere withinHere guard settled placed
    exact ih plain found distinct later within reached.guard reached.settled placed'

end

namespace Document

variable {document : Document} {root : Members}

theorem firstPlaces_of_root (rooted : document.root = .ok root) : document.firstPlaces =
    root.declarations.foldl (root.declarations.placesAfter
      ((root.declarations.length + 1) * ((Json.object root).depth + 1)))
      [] := by
  rw [firstPlaces, declarations_of_root rooted, limit_of_root rooted]

/-- After both passes the definitions are placed where they were first asked for. -/
theorem Passes.placed {selector : Selector σ} {start : σ} {middle after : State σ} {properties : List Field}
    {answer : Int → Except ChoiceError Int} (passes : Passes root selector start middle properties after)
    (answers : selector.Answers answer) (rooted : document.root = .ok root)
    (distinct : Entries.Distinct root.declarations)
    (choiceless : (Json.object root).Choiceless) (acyclic : ∀ name, Acyclic root.declarations name)
    (plain : ∀ entry ∈ root.declarations, entry.2.isPlain = true) :
    after.cache.Placed root.declarations answer document.firstPlaces := by
  have fresh : (State.fresh start).cache.Settled root.declarations answer [] :=
    fun _ _ _ impossible => by cases impossible
  have unplaced : (State.fresh start).cache.Placed root.declarations answer [] :=
    ⟨fun _ _ => rfl, fun _ _ impossible => by cases impossible⟩
  have bodies : ∀ entry ∈ root.declarations, entry.2.Choiceless := fun _ among => choiceless.member among
  have found : ∀ entry ∈ root.declarations, Entries.get? root.declarations entry.1 = some entry.2 :=
    fun entry among => distinct.get?_of_mem among
  have unmixed := Members.unmixed_of_plain plain
  have new : ∀ name ∈ root.declarations.map Prod.fst, name ∉ [] := fun _ _ impossible => by cases impossible
  have within : ∀ entry ∈ root.declarations, Guard.need [] root.declarations entry.2 ≤ _ :=
    fun entry among => need_le_limit [] root among
  obtain ⟨passed, reached, _⟩ := passes.definitions.reached answers unmixed found distinct new rfl fresh
  have placed :=
    passes.definitions.placed answers unmixed bodies acyclic plain found distinct new within rfl fresh unplaced
  rw [firstPlaces_of_root rooted]
  exact @Yields.placed _ _ _ answers bodies acyclic _ _ _ _ _ passes.properties 0 _
    (.of_property rfl) trivial reached.settled placed

end Document
end FieldTree
