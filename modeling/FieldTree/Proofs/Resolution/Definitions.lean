import FieldTree.Proofs.Json.Distinct
import FieldTree.Proofs.Resolution.Passes
import FieldTree.Proofs.Resolution.Settling

/-! The pass over the definitions finds every acyclic one, wherever it stands and whoever asks for it first. -/

namespace FieldTree
open Relation

variable {σ : Type}

/-- A node that refers to something and tells a type as well. -/
def Json.isMixed : Json → Bool
  | .object members => Node.isReference members && Node.hasType members
  | _ => false

def Members.Unmixed (definitions : Members) : Prop := ∀ entry ∈ definitions, entry.2.isMixed = false

theorem Members.Unmixed.untyped {definitions members : Members} (unmixed : definitions.Unmixed) {name : String}
    (given : definitions.given? name = some (.object members)) (reference : Node.isReference members = true) :
    Node.hasType members = false := by
  simpa [Json.isMixed, reference] using unmixed _ (mem_of_given? given)

theorem Members.unmixed_of_plain {definitions : Members} (plain : ∀ entry ∈ definitions, entry.2.isPlain = true) :
    definitions.Unmixed := by
  intro entry among
  have plain := plain entry among
  cases value : entry.2 with
  | object members =>
    rw [value] at plain
    simp only [Json.isPlain, Bool.not_eq_true'] at plain
    simp only [Json.isMixed, plain, Bool.false_and]
  | _ => rfl

theorem Shape.ofNode_alias {members : Members} (reference : Node.isReference members = true)
    (untyped : Node.hasType members = false) (site : Site) :
    ofNode .definition site (.object members) = .reference site members := by
  simp only [ofNode, reference, untyped, Bool.false_eq_true, ite_false, ite_true]

theorem Yields.object {context : Context σ} {manner : Manner} {site : Site} {node : Json} {before after : State σ}
    {fields : List Field} (yields : Yields context (.node manner site node) before fields after) :
    ∃ members, node = .object members := by
  have right : ∀ {shape : Shape}, Shape.ofNode manner site node = shape → (∀ error, shape ≠ .wrong error) →
      ∃ members, node = .object members := by
    intro shape told right
    obtain ⟨members, _, rfl, _⟩ := Shape.ofNode_object told right
    exact ⟨members, rfl⟩
  cases yields <;> exact right (by assumption) (by simp)

/-- A clear definition that refers to another is taken for the reference, whatever else it tells. -/
def Members.Faithful (definitions : Members) (clear : String → Prop) : Prop :=
  ∀ {name members}, clear name → definitions.given? name = some (.object members) →
    Node.isReference members = true → ∀ site, Shape.ofNode .definition site (.object members) = .reference site members

theorem Members.Unmixed.faithful {definitions : Members} (unmixed : definitions.Unmixed) (clear : String → Prop) :
    definitions.Faithful clear :=
  fun _ given reference => Shape.ofNode_alias reference (unmixed.untyped given reference)

section
variable {context : Context σ} {answer : Int → Except ChoiceError Int} {clear : String → Prop} {passed : List String}
  {name : String} {node : Json} {before after : State σ}

/-- What the pass over the definitions has reached. -/
structure Context.Reached (context : Context σ) (clear : String → Prop) (answer : Int → Except ChoiceError Int)
    (passed : List String) (before after : State σ) : Prop where
  guard : after.guard = []
  settled : after.cache.SettledOn clear context.definitions answer passed
  grows : ∀ name, clear name → ∀ field, before.cache.knows name field → after.cache.knows name field

theorem State.Extends.reached (grows : before.Extends after) (guard : before.guard = [])
    (settled : after.cache.SettledOn clear context.definitions answer passed) :
    context.Reached clear answer passed before after :=
  ⟨grows.guard.trans guard, settled, fun name _ field known => grows.known name field known⟩

/-- The walk of a plain definition settles it, if it is clear. -/
theorem Yields.settlesOn_plain (closed : context.definitions.Closed clear) (answers : context.selector.Answers answer)
    {fields : List Field} (walked : Yields context (.node .definition (.named (some name)) node) before fields after)
    (given : ∀ members, node = .object members → context.definitions.given? name = some (.object members))
    (guard : before.guard = []) (settled : before.cache.SettledOn clear context.definitions answer passed) :
    context.Reached clear answer passed before after ∧ (clear name → ∃ body field, fields = [field] ∧
      Source context.definitions passed name body ∧
      Settles answer after.cache.knows (.node .definition (.named (some name)) (.object body)) [field]) := by
  obtain ⟨members, rfl⟩ := walked.object
  obtain ⟨kept, settles⟩ := walked.settlesOn closed answers (.unguarded guard) settled
  refine ⟨walked.extends.reached guard kept, fun here => ?_⟩
  have made := settles (closed.body here (given members rfl) _)
  obtain ⟨field, rfl, _⟩ := made.named
  exact ⟨members, field, rfl, .own (given members rfl), made⟩

theorem Yields.settles_plain (answers : context.selector.Answers answer) {fields : List Field}
    (walked : Yields context (.node .definition (.named (some name)) node) before fields after)
    (given : ∀ members, node = .object members → context.definitions.given? name = some (.object members))
    (guard : before.guard = []) (settled : before.cache.Settled context.definitions answer passed) :
    context.Reached (Acyclic context.definitions) answer passed before after ∧
      (Acyclic context.definitions name → ∃ body field, fields = [field] ∧
        Source context.definitions passed name body ∧
        Settles answer after.cache.knows (.node .definition (.named (some name)) (.object body)) [field]) :=
  walked.settlesOn_plain context.definitions.closed_acyclic answers given guard settled

/-- An alias of a definition that is cached already has the field of that definition. -/
theorem Entries.SettledOn.aliased {cache : Entries Field} {definitions members : Members} {target : String} {old : Field}
    (settled : cache.SettledOn clear definitions answer passed) (faithful : definitions.Faithful clear)
    (new : name ∉ passed) (here : clear name) (given : definitions.given? name = some (.object members))
    (reference : Node.isReference members = true) (refers : Node.target members = .ok target)
    (known : cache.get? name = some old) :
    ∃ field, cache.get? target = some field ∧ old = field.rename (some name) := by
  obtain ⟨site, body, named, source, settles⟩ := settled name old here known
  cases source with
  | behind among => exact absurd among new
  | own given' =>
    rw [given] at given'
    cases given'
    obtain ⟨target', field, refers', known, same⟩ := settles.comes (faithful here given reference site)
    rw [refers] at refers'
    cases refers'
    rw [named] at same
    exact ⟨field, known, (List.cons.inj same).1⟩

/-- The turn of a definition keeps what is settled under clear names. If the definition is clear itself, it is known
thereafter. -/
theorem Defines.reachedOn (closed : context.definitions.Closed clear) (faithful : context.definitions.Faithful clear)
    (answers : context.selector.Answers answer) (defines : Defines context name node before after)
    (found : context.definitions.get? name = some node) (new : name ∉ passed) (guard : before.guard = [])
    (settled : before.cache.SettledOn clear context.definitions answer passed) :
    context.Reached clear answer (name :: passed) before after ∧
      (clear name → ∃ field, after.cache.knows name field) := by
  have given : ∀ members, node = .object members → context.definitions.given? name = some (.object members) := by
    rintro members rfl
    simp only [Members.given?, found]
  have more : ∀ other ∈ passed, other ∈ name :: passed := fun other among => List.mem_cons_of_mem _ among
  cases defines with
  | vanished _ walked =>
    obtain ⟨⟨free, kept, grows⟩, comes⟩ := walked.settlesOn_plain closed answers given guard settled
    refine ⟨⟨free, kept.later more, grows⟩, fun here => ?_⟩
    obtain ⟨_, _, impossible, _⟩ := comes here
    cases impossible
  | kept _ walked known =>
    obtain ⟨⟨free, kept, grows⟩, _⟩ := walked.settlesOn_plain closed answers given guard settled
    exact ⟨⟨free, kept.later more, grows⟩, fun _ => ⟨_, known⟩⟩
  | @stored field after plain walked unknown =>
    obtain ⟨⟨free, kept, grows⟩, comes⟩ := walked.settlesOn_plain closed answers given guard settled
    have agrees : clear name → ∀ old, after.cache.get? name = some old → [field] = [old] := by
      intro _ old known
      rw [unknown] at known
      cases known
    obtain ⟨kept', grows'⟩ := kept.keep closed more agrees fun here => by
      obtain ⟨body, field, same, source, made⟩ := comes here
      exact ⟨_, body, field, same, rfl, source.later more, made⟩
    refine ⟨⟨free, kept', fun other here field known => grows' other here field (grows other here field known)⟩, ?_⟩
    exact fun _ => ⟨field, by simp [Entries.knows, State.stored]⟩
  | @aliased members target known fields after same reference refers cached walked =>
    subst same
    obtain ⟨kept, _⟩ := walked.settlesOn closed answers (.unguarded guard) settled
    -- Only of a clear definition is it known that the walk takes it for the reference.
    have followed : clear name → fields = [known.rename (some name)] ∧ after.cache = before.cache := by
      intro here
      have shape := faithful here (given members rfl) reference (.named (some name))
      have there : (before.logged (.resolving name)).cache.get? target = some known := cached
      obtain ⟨rfl, rfl⟩ := (Yields.reused shape refers there).unique walked
      exact ⟨rfl, rfl⟩
    have agrees : clear name → ∀ old, after.cache.get? name = some old → fields = [old] := by
      intro here old found
      obtain ⟨rfl, unchanged⟩ := followed here
      rw [unchanged] at found
      obtain ⟨field, there, rfl⟩ := settled.aliased faithful new here (given members rfl) reference refers found
      rw [cached] at there
      cases there
      rfl
    obtain ⟨kept', grows⟩ := kept.keep closed more agrees fun here => by
      obtain ⟨rfl, unchanged⟩ := followed here
      refine ⟨.named (some name), members, _, rfl, rfl, .own (given members rfl), ?_⟩
      exact .followed (faithful here (given members rfl) reference _) refers (unchanged ▸ cached)
    refine ⟨⟨?_, kept', fun other here field known => ?_⟩, fun here => ?_⟩
    · rw [State.guard_keep, walked.extends.guard]
      exact guard
    · exact grows other here field (walked.extends.known other field known)
    · obtain ⟨rfl, _⟩ := followed here
      exact ⟨_, State.get?_keep_self _ _ _ _⟩
  | @ahead members target body fields after same reference refers unknown free stands plain walked =>
    subst same
    have outside : Task.Behind context.definitions before.guard
        (.node .definition (.named (some name)) (.object members)) := .unguarded guard
    have behind := outside.enter (Node.mem_references reference refers) stands (.named (some name))
    obtain ⟨kept, settles⟩ := walked.settlesOn closed answers behind settled
    have absent : after.cache.get? target = none := (walked.extends.held target List.mem_cons_self).trans unknown
    have agrees : clear name → ∀ old, after.cache.get? name = some old → fields = [old] := by
      intro here old found
      obtain ⟨field, impossible, _⟩ := kept.aliased faithful new here (given members rfl) reference refers found
      rw [absent] at impossible
      cases impossible
    have comes : clear name → ∃ field, fields = [field] ∧
        Settles answer after.cache.knows (.node .definition (.named (some name)) (.object body)) [field] := by
      intro here
      have step : clear target := closed.step here ⟨_, given members rfl, Node.mem_references reference refers⟩
      have made := settles (closed.body step stands _)
      obtain ⟨field, rfl, _⟩ := made.named
      exact ⟨field, rfl, made⟩
    have state : (after.under (after.guard.erase target)).cache.SettledOn clear context.definitions answer passed := kept
    obtain ⟨kept', grows⟩ := state.keep closed more agrees fun here => by
      obtain ⟨field, same, made⟩ := comes here
      exact ⟨_, body, field, same, rfl, .behind List.mem_cons_self (given members rfl) reference refers stands, made⟩
    refine ⟨⟨?_, kept', fun other here field known => ?_⟩, fun here => ?_⟩
    · rw [State.guard_keep]
      change after.guard.erase target = []
      rw [walked.extends.guard]
      change (target :: before.guard).erase target = []
      rw [guard, List.erase_cons_head]
    · exact grows other here field (walked.extends.known other field known)
    · obtain ⟨field, rfl, _⟩ := comes here
      exact ⟨field, State.get?_keep_self _ _ _ _⟩

theorem Defines.reached (answers : context.selector.Answers answer) (unmixed : context.definitions.Unmixed)
    (defines : Defines context name node before after) (found : context.definitions.get? name = some node)
    (new : name ∉ passed) (guard : before.guard = [])
    (settled : before.cache.Settled context.definitions answer passed) :
    context.Reached (Acyclic context.definitions) answer (name :: passed) before after ∧
      (Acyclic context.definitions name → ∃ field, after.cache.knows name field) :=
  defines.reachedOn context.definitions.closed_acyclic (unmixed.faithful _) answers found new guard settled

end

/-- Whatever its place among the definitions, a clear one is known after the pass, and settled. -/
theorem DefinesAll.reachedOn {context : Context σ} {answer : Int → Except ChoiceError Int} {clear : String → Prop}
    (closed : context.definitions.Closed clear) (faithful : context.definitions.Faithful clear)
    (answers : context.selector.Answers answer) {members : Members} {passed : List String} {before after : State σ}
    (defines : DefinesAll context members before after)
    (found : ∀ entry ∈ members, context.definitions.get? entry.1 = some entry.2) (distinct : Entries.Distinct members)
    (new : ∀ name ∈ members.map Prod.fst, name ∉ passed) (guard : before.guard = [])
    (settled : before.cache.SettledOn clear context.definitions answer passed) :
    context.Reached clear answer ((members.map Prod.fst).reverse ++ passed) before after ∧
      ∀ name ∈ members.map Prod.fst, clear name → ∃ field, after.cache.knows name field := by
  induction defines generalizing passed with
  | nil => exact ⟨⟨guard, settled, fun _ _ _ known => known⟩, fun _ impossible => by cases impossible⟩
  | @cons name node rest before middle after here _ ih =>
    obtain ⟨different, distinct⟩ := List.nodup_cons.mp distinct
    obtain ⟨⟨free, kept, grows⟩, known⟩ :=
      here.reachedOn closed faithful answers (found _ List.mem_cons_self) (new name List.mem_cons_self) guard settled
    have later : ∀ other ∈ rest.map Prod.fst, other ∉ name :: passed := by
      intro other among impossible
      rcases List.mem_cons.mp impossible with rfl | earlier
      · exact different among
      · exact new other (List.mem_cons_of_mem _ among) earlier
    obtain ⟨reached, all⟩ :=
      ih (fun entry among => found entry (List.mem_cons_of_mem _ among)) distinct later free kept
    have order : ((name :: rest.map Prod.fst).reverse ++ passed) = (rest.map Prod.fst).reverse ++ name :: passed := by
      simp
    refine ⟨⟨reached.guard, order ▸ reached.settled, fun other clears field before => ?_⟩, fun other among clears => ?_⟩
    · exact reached.grows other clears field (grows other clears field before)
    · rcases List.mem_cons.mp among with rfl | further
      · obtain ⟨field, found⟩ := known clears
        exact ⟨field, reached.grows _ clears field found⟩
      · exact all other further clears

theorem DefinesAll.reached {context : Context σ} {answer : Int → Except ChoiceError Int}
    (answers : context.selector.Answers answer)
    (unmixed : context.definitions.Unmixed) {members : Members} {passed : List String} {before after : State σ}
    (defines : DefinesAll context members before after)
    (found : ∀ entry ∈ members, context.definitions.get? entry.1 = some entry.2) (distinct : Entries.Distinct members)
    (new : ∀ name ∈ members.map Prod.fst, name ∉ passed) (guard : before.guard = [])
    (settled : before.cache.Settled context.definitions answer passed) :
    ∃ passed', context.Reached (Acyclic context.definitions) answer passed' before after ∧
      ∀ name ∈ members.map Prod.fst, Acyclic context.definitions name → ∃ field, after.cache.knows name field :=
  ⟨_, defines.reachedOn context.definitions.closed_acyclic (unmixed.faithful _) answers found distinct new guard settled⟩

/-- A value comes with no key twice in one object. Text may repeat a key; then it is the last value that counts. -/
def Document.WellFormed : Document → Prop
  | .value json => json.Distinct
  | _ => True

/-- The definitions of a document; none, if it has no root. -/
def Document.declarations (document : Document) : Members :=
  match document.root with
  | .ok root => root.declarations
  | .error _ => []

namespace Document

variable {document : Document} {root : Members}

theorem distinct_of_ofRead {source : String} (told : Document.root.ofRead (Json.read? source) = .ok root) :
    (Json.object root).Distinct := by
  unfold Document.root.ofRead at told
  split at told
  next read =>
    cases told
    exact Json.distinct_of_read? read
  next => cases told
  next => cases told

theorem distinct_of_root (wellFormed : document.WellFormed) (rooted : document.root = .ok root) :
    (Json.object root).Distinct := by
  unfold Document.root at rooted
  split at rooted
  · exact distinct_of_ofRead rooted
  next bytes =>
    cases text : Text.decode? bytes with
    | some source =>
      rw [text] at rooted
      exact distinct_of_ofRead rooted
    | none =>
      rw [text] at rooted
      cases rooted
  · cases rooted
    exact wellFormed
  · exact distinct_of_ofRead rooted
  · cases rooted

theorem declarations_of_root (rooted : document.root = .ok root) : document.declarations = root.declarations := by
  simp only [declarations, rooted]

theorem distinct_declarations (wellFormed : document.WellFormed) : document.declarations.Distinct := by
  cases rooted : document.root with
  | error cause =>
    simp only [declarations, rooted]
    exact List.nodup_nil
  | ok root =>
    rw [declarations_of_root rooted]
    unfold Members.declarations
    cases given : root.given? "definitions" with
    | none => exact List.nodup_nil
    | some value =>
      cases value with
      | object members =>
        exact distinct_of_root wellFormed rooted members (List.mem_cons_of_mem _ (Members.mem_parts_of_given? given))
      | _ => exact List.nodup_nil

/-- After both passes every acyclic definition is known, and settled in what is cached, and so are the properties. -/
theorem Passes.settled {selector : Selector σ} {start : σ} {middle after : State σ} {properties : List Field}
    {answer : Int → Except ChoiceError Int} (passes : Passes root selector start middle properties after)
    (answers : selector.Answers answer) (unmixed : Members.Unmixed root.declarations)
    (distinct : Entries.Distinct root.declarations) :
    ∃ passed, after.cache.Settled root.declarations answer passed ∧
      (∀ name ∈ root.declarations.map Prod.fst,
        Acyclic root.declarations name → ∃ field, after.cache.get? name = some field) ∧
      Settles answer after.cache.knows (.all .property (outer root)) properties := by
  have fresh : (State.fresh start).cache.Settled root.declarations answer [] :=
    fun _ _ _ impossible => by cases impossible
  obtain ⟨passed, reached, known⟩ := passes.definitions.reached answers unmixed
    (fun entry among => distinct.get?_of_mem among)
    distinct (fun _ _ impossible => by cases impossible) rfl fresh
  obtain ⟨kept, settles⟩ := passes.properties.settles answers (.of_property rfl) reached.settled
  refine ⟨passed, kept, fun name declared acyclic => ?_, settles (.of_property rfl)⟩
  obtain ⟨field, found⟩ := known name declared acyclic
  exact ⟨field, passes.properties.extends.known name field found⟩

end Document
end FieldTree
