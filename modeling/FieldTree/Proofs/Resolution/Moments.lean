import FieldTree.Proofs.Resolution.Aliases
import FieldTree.Proofs.Resolution.Required

/-! The caches that a resolution goes through, in the order of time. Each is kept by all that come later, the last of
which is that of the schema, so every reference that is met agrees with the schema on its target. -/

namespace FieldTree

variable {σ : Type}

section
variable {context : Context σ} {task task' : Task} {before before' after after' : State σ} {fields fields' : List Field}

theorem Starts.side_eq (starts : Starts context task before task' before') : task'.side = task.side := by
  cases starts with
  | inside => rfl
  | body => rfl
  | first => rfl
  | merge side => exact side.symm
  | scalar side => exact side.symm
  | @here side => cases side <;> rfl
  | later => rfl
  | inline => rfl
  | afterInline => rfl
  | afterReference => rfl

theorem Starts.persists (starts : Starts context task before task' before') :
    before.cache.Persists before'.cache := by
  cases starts with
  | first _ _ taken => exact (Walker.extends_of_take taken).known
  | merge _ _ _ taken => exact (Walker.extends_of_take taken).known
  | scalar _ _ _ taken => exact (Walker.extends_of_take taken).known
  | later walked => exact (walked.extends.trans (.noted _ _ _)).known
  | afterInline _ walked => exact walked.extends.known
  | _ => exact .refl _

theorem Starts.cache_of_property (starts : Starts context task before task' before') (side : task.side = .property) :
    before'.cache = before.cache := by
  cases starts with
  | first => cases side
  | merge _ _ _ taken => exact (Walker.same_of_take taken).2
  | scalar _ _ _ taken => exact (Walker.same_of_take taken).2
  | @later side' _ _ _ _ _ walked =>
    obtain rfl : side' = .property := side
    exact (State.cache_noted _ _ _).trans (walked.cache_of_property rfl)
  | afterInline _ walked => exact walked.cache_of_property rfl
  | _ => rfl

/-- On the side of the definitions, what a task begins comes to an end if the task does. -/
theorem Starts.ends (starts : Starts context task before task' before') (side : task'.side = .definition)
    (yields : Yields context task before fields after) :
    ∃ fields' after', Yields context task' before' fields' after' ∧ after'.cache.Persists after.cache := by
  cases starts with
  | inside shape =>
    obtain ⟨each, _, walked, _⟩ := yields.walked shape
    exact ⟨each, after, walked, .refl _⟩
  | @body _ _ _ _ target _ _ shape refers unknown free given =>
    obtain ⟨_, refers', followed⟩ := yields.walked shape
    cases refers.symm.trans refers'
    rcases followed with ⟨_, known, _⟩ | ⟨_, held, _⟩ | ⟨_, _, _, made, middle, given', inside, _, rfl⟩
    · cases unknown.symm.trans known
    · exact absurd held free
    · cases given.symm.trans given'
      have new : middle.cache.get? target = none := (inside.extends.held target List.mem_cons_self).trans unknown
      exact ⟨made, middle, inside, State.persists_keep_new made new⟩
  | first shape listed taken =>
    obtain ⟨_, used, middle, listed', taken', walked⟩ := yields.walked shape
    cases listed.symm.trans listed'
    cases taken.symm.trans taken'
    exact ⟨fields, after, walked, .refl _⟩
  | merge => cases side
  | scalar => cases side
  | here =>
    cases yields with
    | @allCons _ _ _ fields _ _ middle _ here later =>
      exact ⟨fields, middle, here, ((State.Extends.noted _ _ _).trans later.extends).known⟩
  | later walked =>
    cases yields with
    | allCons here later =>
      obtain ⟨rfl, rfl⟩ := walked.unique here
      exact ⟨_, after, later, .refl _⟩
  | inline => cases side
  | afterInline => cases side
  | afterReference => cases side

theorem Starts.outward (starts : Starts context task before task' before')
    (inner : Yields context task' before' fields' after') (outer : Yields context task before fields after) :
    after'.cache.Persists after.cache := by
  cases side : task'.side with
  | definition =>
    obtain ⟨_, _, walked, persists⟩ := starts.ends side outer
    obtain ⟨_, rfl⟩ := inner.unique walked
    exact persists
  | property =>
    have outside : task.side = .property := starts.side_eq.symm.trans side
    rw [inner.cache_of_property side, starts.cache_of_property outside, outer.cache_of_property outside]
    exact .refl _

end

section
variable {context : Context σ} {before : State σ}

theorem Begins.cache_eq {name : String} {node : Json} {task : Task} {begun : State σ}
    (begins : Begins context name node before task begun) : begun.cache = before.cache := by
  cases begins <;> rfl

end

namespace Document

/-- The second is a cache at the same moment of the resolution of a document, or at a later one. The moments are those at
which a turn of the pass over the definitions ends, or a task begins or ends; in between nothing is stored. Where the
resolution fails, these are the moments before the failure. -/
inductive Later (root : Members) (selector : Selector σ) (start : σ) : Entries Field → Entries Field → Prop
  | same {cache} : Later root selector start cache cache
  | trans {first middle last} (before : Later root selector start first middle)
    (after : Later root selector start middle last) : Later root selector start first last
  | turn {passed name node rest before after} (declared : root.declarations = passed ++ (name, node) :: rest)
    (earlier : DefinesAll (context root selector) passed (State.fresh start) before)
    (defines : Defines (context root selector) name node before after) :
    Later root selector start before.cache after.cache
  | closing {passed name node rest before after task begun fields ended}
    (declared : root.declarations = passed ++ (name, node) :: rest)
    (earlier : DefinesAll (context root selector) passed (State.fresh start) before)
    (begins : Begins (context root selector) name node before task begun)
    (walked : Yields (context root selector) task begun fields ended)
    (defines : Defines (context root selector) name node before after) :
    Later root selector start ended.cache after.cache
  | starting {task before task' before'} (visited : Visits root selector start task before)
    (starts : Starts (context root selector) task before task' before') :
    Later root selector start before.cache before'.cache
  | ending {task before fields after} (visited : Visits root selector start task before)
    (yields : Yields (context root selector) task before fields after) :
    Later root selector start before.cache after.cache
  | outward {task before fields after task' before' fields' after'} (visited : Visits root selector start task before)
    (starts : Starts (context root selector) task before task' before')
    (inner : Yields (context root selector) task' before' fields' after')
    (outer : Yields (context root selector) task before fields after) :
    Later root selector start after'.cache after.cache

section
variable {root : Members} {selector : Selector σ} {start : σ} {name : String} {node : Json} {passed rest : Members}
  {before after : State σ}

theorem turn_of_declared (distinct : Entries.Distinct root.declarations) (unmixed : Members.Unmixed root.declarations)
    (declared : root.declarations = passed ++ (name, node) :: rest)
    (earlier : DefinesAll (context root selector) passed (State.fresh start) before)
    (defines : Defines (context root selector) name node before after) :
    ∃ task begun fields last, Begins (context root selector) name node before task begun ∧
      Yields (context root selector) task begun fields last ∧ last.cache.Persists after.cache := by
  have found : ∀ entry ∈ passed ++ (name, node) :: rest, root.declarations.get? entry.1 = some entry.2 :=
    fun entry among => distinct.get?_of_mem (declared ▸ among)
  rw [declared, Entries.Distinct, List.map_append, List.nodup_append] at distinct
  obtain ⟨before_distinct, _, apart⟩ := distinct
  have fresh : (State.fresh start).cache.Mirrors root.declarations [] := fun _ _ _ _ _ _ _ _ impossible => by
    cases impossible
  obtain ⟨guard, mirrors⟩ := earlier.mirrors unmixed (fun entry among => found entry (List.mem_append_left _ among))
    before_distinct (fun _ _ impossible => by cases impossible) rfl fresh
  have new : name ∉ passed.map Prod.fst ++ [] := by
    rw [List.append_nil]
    exact fun among => apart name among name List.mem_cons_self rfl
  have here := found (name, node) (List.mem_append_right _ List.mem_cons_self)
  exact (defines.turn unmixed here new guard mirrors).2

/-- What is cached stays cached as it is. -/
theorem Later.persists (distinct : Entries.Distinct root.declarations) (unmixed : Members.Unmixed root.declarations)
    {first last : Entries Field} (later : Later root selector start first last) : first.Persists last := by
  induction later with
  | same => exact .refl _
  | trans _ _ ihBefore ihAfter => exact ihBefore.trans ihAfter
  | turn declared earlier defines =>
    obtain ⟨task, begun, fields, ended, begins, walked, persists⟩ :=
      turn_of_declared distinct unmixed declared earlier defines
    rw [← begins.cache_eq]
    exact Entries.Persists.trans walked.extends.known persists
  | closing declared earlier begins walked defines =>
    obtain ⟨_, _, _, _, begins', walked', persists⟩ := turn_of_declared distinct unmixed declared earlier defines
    obtain ⟨rfl, rfl⟩ := begins.unique begins'
    obtain ⟨_, rfl⟩ := walked.unique walked'
    exact persists
  | starting _ starts => exact starts.persists
  | ending _ yields => exact yields.extends.known
  | outward _ starts inner outer => exact starts.outward inner outer

/-- The rest of the pass over the definitions comes later. -/
theorem Later.of_rest {last : State σ} (declared : root.declarations = passed ++ rest)
    (earlier : DefinesAll (context root selector) passed (State.fresh start) before)
    (onward : DefinesAll (context root selector) rest before last) :
    Later root selector start before.cache last.cache := by
  induction onward generalizing passed with
  | nil => exact .same
  | @cons name node rest _ _ _ here _ ih =>
    have next := ih (by rw [declared, List.append_assoc, List.singleton_append]) (earlier.append (.cons here .nil))
    exact .trans (.turn declared earlier here) next

/-- Every task begins before the end of the resolution, and on the side of the definitions it ends before. -/
theorem Visits.lasts {middle : State σ} {properties : List Field}
    (passes : Passes root selector start middle properties after) (distinct : Entries.Distinct root.declarations)
    (unmixed : Members.Unmixed root.declarations) {task : Task} (visited : Visits root selector start task before) :
    Later root selector start before.cache after.cache ∧ (task.side = .definition → ∃ fields last,
      Yields (context root selector) task before fields last ∧ Later root selector start last.cache after.cache) := by
  have defined : after.cache = middle.cache := passes.properties.cache_of_property rfl
  induction visited with
  | @definition passed name node rest before task begun declared earlier begins =>
    have pass := passes.definitions
    rw [declared] at pass
    obtain ⟨_, earlier', further⟩ := pass.of_append
    obtain rfl := earlier.unique earlier'
    cases further with
    | @cons _ _ _ _ turned _ turn onward =>
      obtain ⟨_, _, fields, last, begins', walked, _⟩ := turn_of_declared distinct unmixed declared earlier turn
      obtain ⟨rfl, rfl⟩ := begins.unique begins'
      have remaining : Later root selector start turned.cache after.cache := by
        rw [defined]
        exact .of_rest (by rw [declared, List.append_assoc, List.singleton_append]) (earlier.append (.cons turn .nil))
          onward
      have ended : Later root selector start last.cache after.cache :=
        .trans (.closing declared earlier begins walked turn) remaining
      exact ⟨.trans (.ending (.definition declared earlier begins) walked) ended, fun _ => ⟨fields, last, walked, ended⟩⟩
  | properties all =>
    obtain rfl := passes.definitions.unique all
    rw [defined]
    exact ⟨.same, fun impossible => by cases impossible⟩
  | @inner task before task' before' visited starts ih =>
    obtain ⟨begun, ends⟩ := ih
    cases side : task'.side with
    | definition =>
      obtain ⟨fields, last, yields, ended⟩ := ends (starts.side_eq.symm.trans side)
      obtain ⟨fields', last', walked, _⟩ := starts.ends side yields
      have later : Later root selector start last'.cache after.cache :=
        .trans (.outward visited starts walked yields) ended
      exact ⟨.trans (.ending (.inner visited starts) walked) later, fun _ => ⟨fields', last', walked, later⟩⟩
    | property =>
      rw [starts.cache_of_property (starts.side_eq.symm.trans side)]
      exact ⟨begun, fun impossible => by cases impossible⟩

theorem Visits.lasts_end {middle last : State σ} {properties fields : List Field}
    (passes : Passes root selector start middle properties after) (distinct : Entries.Distinct root.declarations)
    (unmixed : Members.Unmixed root.declarations) {task : Task} (visited : Visits root selector start task before)
    (yields : Yields (context root selector) task before fields last) :
    Later root selector start last.cache after.cache := by
  obtain ⟨begun, ends⟩ := visited.lasts passes distinct unmixed
  cases side : task.side with
  | definition =>
    obtain ⟨_, _, walked, later⟩ := ends side
    obtain ⟨_, rfl⟩ := yields.unique walked
    exact later
  | property =>
    rw [yields.cache_of_property side]
    exact begun

end
end Document

/-- What comes of a reference is what the schema says of its target. On the side of the definitions that is renamed to
the place of the reference, and on that of the properties it is also set anew whether it is required, unless it is a
scalar. To a combination the target adds itself, or its fields. A definition that stands for one yet to come is no
reference that is met: on its turn the body of the other is resolved in its place. -/
structure Schema.Agrees (schema : Schema) (root : Members) (selector : Selector σ) (start : σ) : Prop where
  definition : ∀ {site node other members before field after},
    Document.Visits root selector start (.node .definition site node) before →
    Shape.ofNode .definition site node = .reference other members →
    Yields (Document.context root selector) (.node .definition site node) before [field] after →
    ∃ target stored, Node.target members = .ok target ∧ Entries.get? schema.definitions target = some stored ∧
      field = stored.rename site.name
  property : ∀ {manner site node other members before field after}, manner.side = .property →
    Document.Visits root selector start (.node manner site node) before →
    Shape.ofNode manner site node = .reference other members → Node.type? members ≠ some .array →
    Yields (Document.context root selector) (.node manner site node) before [field] after →
    ∃ target stored, Node.target members = .ok target ∧ Entries.get? schema.definitions target = some stored ∧
      field = if stored.kind.isScalar then stored.rename site.name
        else (stored.rename site.name).withRequired other.required other.inObject
  branch : ∀ {name branch rest before fields after},
    Document.Visits root selector start (.merge name (branch :: rest)) before → Node.isReference branch = true →
    Yields (Document.context root selector) (.merge name (branch :: rest)) before fields after →
    ∃ target stored added others, Node.target branch = .ok target ∧
      Entries.get? schema.definitions target = some stored ∧ stored.added name branch = .ok added ∧
      fields = added ++ others

namespace Document

variable {root : Members} {selector : Selector σ} {start : σ} {middle after : State σ} {properties : List Field}

theorem Passes.agrees (passes : Passes root selector start middle properties after)
    (distinct : Entries.Distinct root.declarations) (unmixed : Members.Unmixed root.declarations) :
    (assembled root properties after.cache).Agrees root selector start := by
  have begun : ∀ {task before target field}, Visits root selector start task before →
      before.cache.get? target = some field → after.cache.get? target = some field :=
    fun visited known => (visited.lasts passes distinct unmixed).1.persists distinct unmixed _ _ known
  constructor
  · intro site node other members before field last visited shape yields
    obtain ⟨target, refers, followed⟩ := yields.walked shape
    rw [← (Shape.ofNode_reference shape).2.2]
    rcases followed with ⟨stored, known, same, _⟩ | ⟨_, _, none, _⟩ | ⟨_, _, _, made, ended, _, inside, same, rfl⟩
    · exact ⟨target, stored, refers, begun visited known, (List.cons.inj same).1⟩
    · cases none
    · obtain ⟨stored, rfl, rfl⟩ := List.map_eq_singleton_iff.mp same.symm
      have later := (visited.lasts_end passes distinct unmixed yields).persists distinct unmixed
      exact ⟨target, stored, refers, later target stored (State.get?_keep_self ended target stored []), rfl⟩
  · intro manner site node other members before field last side visited shape single yields
    have walked := yields.walked shape
    rw [side] at walked
    obtain ⟨target, stored, taken, refers, known, takes, same, _⟩ := walked
    obtain rfl := (List.cons.inj same).1
    refine ⟨target, stored, refers, begun visited known, ?_⟩
    simp only [Site.takeOver, single, ite_false, Except.ok.injEq] at takes
    rw [← takes, (Shape.ofNode_reference shape).2.2, Walker.atSite, Field.kind_rename]
  · intro name branch rest before fields last visited reference yields
    cases yields with
    | mergeInline inline =>
      rw [reference] at inline
      cases inline
    | mergeReference _ refers known adds => exact ⟨_, _, _, _, refers, begun visited known, adds, rfl⟩

/-- From the moment a name is cached its field stays as it is, also when the resolution fails later. So all references
to a definition agree with what the schema says of it, whenever they were met. -/
theorem cached_once {document : Document} (wellFormed : document.WellFormed)
    (unmixed : document.declarations.Unmixed) (rooted : document.root = .ok root) :
    (∀ {first last}, Later root selector start first last →
      ∀ name field, first.get? name = some field → last.get? name = some field) ∧
    ∀ {bound schema}, (document.resolveWithin bound selector start).result = .ok schema →
      (∀ {task before}, Visits root selector start task before →
        Later root selector start before.cache schema.definitions ∧
        ∀ {fields last}, Yields (context root selector) task before fields last →
          Later root selector start last.cache schema.definitions) ∧
      schema.Agrees root selector start := by
  have distinct := distinct_declarations wellFormed
  rw [declarations_of_root rooted] at unmixed distinct
  refine ⟨fun later => later.persists distinct unmixed, fun {bound schema} resolved => ?_⟩
  obtain ⟨_, _, _, last, rooted', passes, rfl⟩ := passes_of_resolved resolved
  cases rooted.symm.trans rooted'
  refine ⟨fun visited => ⟨(visited.lasts passes distinct unmixed).1, fun yields => ?_⟩,
    passes.agrees distinct unmixed⟩
  exact visited.lasts_end passes distinct unmixed yields

/-- The words of a page are those of the book. -/
theorem cached_once_book : ∃ schema site node before words after stored,
    ((Document.value (.object book)).resolveWithin 20 Selector.first ()).result = .ok schema ∧
      site.name = some "words" ∧ Visits book Selector.first () (.node .definition site node) before ∧
      Yields (context book Selector.first) (.node .definition site node) before [words] after ∧
      Entries.get? schema.definitions "Words" = some stored ∧ words = stored.rename (some "words") := by
  obtain ⟨schema, resolved⟩ : ∃ schema,
      ((Document.value (.object book)).resolveWithin 20 Selector.first ()).result = .ok schema :=
    exists_of_toBool (by decide +kernel)
  have wellFormed : (Document.value (.object book)).WellFormed := by
    unfold Document.WellFormed
    decide
  have unmixed : (Document.value (.object book)).declarations.Unmixed := by
    unfold Members.Unmixed
    decide
  obtain ⟨_, agrees⟩ := (@cached_once _ _ Selector.first () _ wellFormed unmixed rfl).2 resolved
  have sound : Walker.Sound (context book Selector.first) (walker (context book Selector.first) 10) :=
    Walker.sound_walker _ 10
  have earlier : DefinesAll (context book Selector.first) (book.declarations.take 1) (State.fresh ()) _ :=
    definesAll_of_ends sound rfl
  have visited := Visits.inner (Visits.inner (Visits.definition rfl earlier (.plain rfl)) (.inside rfl)) .here
  obtain ⟨target, stored, refers, found, same⟩ := agrees.definition visited rfl (.reused rfl rfl rfl)
  cases refers
  exact ⟨schema, _, _, _, _, _, stored, resolved, rfl, visited, .reused rfl rfl rfl, found, same⟩

end Document
end FieldTree
