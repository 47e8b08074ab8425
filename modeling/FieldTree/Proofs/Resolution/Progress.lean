import FieldTree.Proofs.Resolution.Expansion

/-! What expands is walked. The walk of a node that comes to something by way of the expansions of its references does
not fail and leaves nothing out, whatever has been cached before, as long as it is alike. -/

namespace FieldTree
open Relation

variable {σ : Type}

theorem Selector.Answers.pick {selector : Selector σ} {answer : Int → Except ChoiceError Int}
    (answers : selector.Answers answer)
    {count index : Int} (answered : answer count = .ok index) (inside : 0 ≤ index ∧ index < count) (state : σ) :
    ∃ next, selector.pick count state = (.ok index, next) := by
  have told := answers count state
  unfold Selector.pick
  cases chosen : selector.choose count state with
  | error error =>
    rw [chosen, answered] at told
    cases told
  | ok choice =>
    obtain ⟨other, next⟩ := choice
    rw [chosen, answered] at told
    cases told
    exact ⟨next, if_pos inside⟩

theorem Combinator.take_of_used {context : Context σ} {answer : Int → Except ChoiceError Int}
    (answers : context.selector.Answers answer) (name : Option String) {combinator : Combinator}
    {branches used : List Members} (taken : combinator.used answer branches = some used) (before : State σ) :
    ∃ after, (Walker.take context name combinator branches).Ends before used after := by
  unfold Combinator.used at taken
  unfold Walker.take
  split at taken
  next every =>
    cases taken
    simp only [every, ite_true]
    exact ⟨before, Resolve.ends_pure.mpr ⟨rfl, rfl⟩⟩
  next alternative =>
    simp only [alternative, ite_false]
    cases answered : answer branches.length with
    | error error =>
      rw [answered] at taken
      cases taken
    | ok index =>
      simp only [answered] at taken
      split at taken
      next positive =>
        obtain ⟨branch, found, rfl⟩ := Option.map_eq_some_iff.mp taken
        obtain ⟨inside, rfl⟩ := List.getElem?_eq_some_iff.mp found
        obtain ⟨next, picked⟩ := answers.pick answered ⟨positive, by omega⟩ before.selector
        have whole : ((index.toNat : Nat) : Int) = index := Int.toNat_of_nonneg positive
        rw [← whole] at picked
        have selected := (@Walker.ends_select _ context name combinator branches _ before _).mpr
          ⟨⟨index.toNat, inside⟩, next, rfl, picked, rfl⟩
        exact ⟨_, Resolve.ends_bind.mpr ⟨_, _, selected, Resolve.ends_pure.mpr ⟨rfl, rfl⟩⟩⟩
      next => cases taken

/-- What is cached is the expansion of the definition, up to requirements. -/
def Entries.Expanded (cache : Entries Field) (definitions : Members) (answer : Int → Except ChoiceError Int) : Prop :=
  ∀ name field, cache.get? name = some field →
    ∃ expanded, Expands definitions answer name expanded ∧ field.erase = expanded.erase

/-- Every definition that expands is cached. -/
def Entries.Complete (cache : Entries Field) (definitions : Members) (answer : Int → Except ChoiceError Int) : Prop :=
  ∀ name expanded, Expands definitions answer name expanded → ∃ field, cache.get? name = some field

section
variable {definitions : Members} {answer : Int → Except ChoiceError Int} {before after : State σ}

theorem Entries.Expanded.erase_eq {cache : Entries Field} (expanded : cache.Expanded definitions answer) {name : String}
    {field other : Field} (known : cache.get? name = some field) (expands : Expands definitions answer name other) :
    field.erase = other.erase := by
  obtain ⟨made, expands', same⟩ := expanded name field known
  rw [same, expands.unique expands']

theorem Entries.Expanded.keep {state : State σ} (expanded : state.cache.Expanded definitions answer) {name : String}
    {field other : Field} (expands : Expands definitions answer name other) (same : field.erase = other.erase) :
    (state.keep name [field]).cache.Expanded definitions answer := by
  intro key found known
  by_cases here : name = key
  · subst here
    rw [State.get?_keep_self] at known
    cases known
    exact ⟨other, expands, same⟩
  · rw [State.get?_keep state name [field] here] at known
    exact expanded key found known

theorem Entries.Complete.extends (complete : before.cache.Complete definitions answer) (grows : before.Extends after) :
    after.cache.Complete definitions answer := by
  intro name expanded expands
  obtain ⟨field, known⟩ := complete name expanded expands
  exact ⟨field, grows.known name field known⟩

end

/-- Whatever task is alike, its walk does not fail and makes fields that agree; from a state where the names under guard
lead to the task, no definition that it leads to is cyclic, and what is cached is expanded. -/
def Task.Delivers (context : Context σ) (answer : Int → Except ChoiceError Int) (task : Task) (fields : List Field) :
    Prop :=
  ∀ ⦃task' : Task⦄ ⦃before : State σ⦄, task.Alike task' → task.Behind context.definitions before.guard →
    task.Acyclic context.definitions → before.cache.Expanded context.definitions answer →
      (task.side = .property → before.cache.Complete context.definitions answer) →
        ∃ fields' after, Yields context task' before fields' after ∧ after.cache.Expanded context.definitions answer ∧
          task.Agree fields' fields

namespace Task.Delivers

variable {context : Context σ} {answer : Int → Except ChoiceError Int} {manner : Manner} {site : Site} {node : Json}
  {name : Option String} {target : String} {members : Members} {combinator : Combinator} {branches : List Members}
  {field : Field} {fields others : List Field}

theorem leaf (shape : Shape.ofNode manner site node = .leaf field) :
    Delivers context answer (.node manner site node) [field] := by
  intro task' before alike _ _ expanded _
  obtain @⟨_, _, site', _⟩ := alike
  obtain ⟨field', shape', same⟩ := Shape.alike_leaf site' shape
  exact ⟨[field'], before, .leaf shape', expanded, by simp only [Agree, List.map_cons, List.map_nil, same]⟩

theorem group {inner : List Inner} {making : Making} (each : Delivers context answer (.all manner.side inner) fields)
    (shape : Shape.ofNode manner site node = .group inner making) (makes : making.make fields = .ok (some field)) :
    Delivers context answer (.node manner site node) [field] := by
  intro task' before alike behind acyclic expanded complete
  obtain @⟨_, _, site', _⟩ := alike
  obtain ⟨inner', making', shape', places, making⟩ := Shape.alike_group site' shape
  have leads := Task.leads_group shape
  obtain ⟨fields', after, walked, expanded', same⟩ := each (.all places) (behind.leads leads)
    (acyclic.leads leads) expanded complete
  obtain ⟨made', makes', bare⟩ := Making.alike_make making same makes
  refine ⟨[made'], after, .group shape' walked makes', expanded', ?_⟩
  simp only [Agree, List.map_cons, List.map_nil, bare]

/-- The target is not under guard, for it would lead to itself. -/
theorem followed {other : Site} {body : Members}
    (inside : Delivers context answer (.node .definition (.named (some target)) (.object body)) [field])
    (shape : Shape.ofNode .definition site node = .reference other members) (refers : Node.target members = .ok target)
    (given : context.definitions.given? target = some (.object body))
    (expands : Expands context.definitions answer target field) :
    Delivers context answer (.node .definition site node) [field.rename other.name] := by
  intro task' before alike behind acyclic expanded _
  obtain @⟨_, _, site', _⟩ := alike
  obtain ⟨other', shape'⟩ := Shape.alike_reference site' shape
  have among := Task.mem_references shape refers
  cases cached : before.cache.get? target with
  | some field' =>
    refine ⟨[field'.rename other'.name], _, .reused shape' refers cached, expanded, ?_⟩
    have same := expanded.erase_eq cached expands
    simp only [Agree, List.map_cons, List.map_nil, Field.bare_rename, Field.bare_eq_of_erase same]
  | none =>
    have free : target ∉ before.guard :=
      fun held => (acyclic rfl target among).irreflexive (behind rfl target held target among)
    have places : Task.Alike (.node .definition (.named (some target)) (.object body))
        (.node .definition { other' with name := some target } (.object body)) := .node fun _ => rfl
    have entered : (before.under (target :: before.guard)).cache.Expanded context.definitions answer := expanded
    obtain ⟨fields', middle, walked, expanded', agree⟩ := inside places (behind.enter among given _)
      ((acyclic rfl target among).body given _) entered (fun impossible => by cases impossible)
    obtain ⟨made, rfl, bare⟩ := Task.single_of_agree agree
    have same : made.erase = field.erase := by
      apply Field.erase_eq_of_bare _ bare
      rw [walked.named made List.mem_cons_self, expands.named]
    refine ⟨_, _, .extracted shape' refers cached free given walked, expanded'.keep expands same, ?_⟩
    simp only [Agree, List.map_cons, List.map_nil, Field.bare_rename, bare]

theorem declared {other : Site} {taken : Field} (side : manner.side = .property)
    (shape : Shape.ofNode manner site node = .reference other members) (refers : Node.target members = .ok target)
    (expands : Expands context.definitions answer target field) (takes : other.takeOver members field = .ok taken) :
    Delivers context answer (.node manner site node) [taken] := by
  intro task' before alike _ _ expanded complete
  obtain @⟨_, _, site', _⟩ := alike
  obtain ⟨other', shape'⟩ := Shape.alike_reference site' shape
  obtain ⟨field', known'⟩ := complete side target field expands
  obtain ⟨taken', takes', bare⟩ := Site.alike_takeOver other' (expanded.erase_eq known' expands) takes
  refine ⟨[taken'], before, .declared side shape' refers known' takes', expanded, ?_⟩
  simp only [Agree, List.map_cons, List.map_nil, bare]

section
variable (answers : context.selector.Answers answer) (listed : Node.branches members combinator name = .ok branches)
include answers listed

theorem empty (shape : Shape.ofNode .definition site node = .combination name members combinator)
    (taken : combinator.used answer branches = some []) :
    Delivers context answer (.node .definition site node) [.object name none [] []] := by
  intro task' before alike _ _ expanded _
  obtain @⟨_, _, site', _⟩ := alike
  have shape' := Shape.alike_combination site' shape
  obtain ⟨after, taken'⟩ := Combinator.take_of_used answers site'.name taken before
  refine ⟨_, after, .empty shape' (Node.branches_of_ok site'.name listed) taken', ?_, rfl⟩
  rw [(Walker.same_of_take taken').2]
  exact expanded

theorem first {branch : Members} {rest : List Members}
    (inside : Delivers context answer (.node .definition (.named name) (.object branch)) fields)
    (shape : Shape.ofNode .definition site node = .combination name members combinator)
    (taken : combinator.used answer branches = some (branch :: rest)) :
    Delivers context answer (.node .definition site node) fields := by
  intro task' before alike behind acyclic expanded _
  obtain @⟨_, _, site', _⟩ := alike
  have shape' := Shape.alike_combination site' shape
  obtain ⟨middle, taken'⟩ := Combinator.take_of_used answers site'.name taken before
  obtain ⟨guard, cache⟩ := Walker.same_of_take taken'
  have leads := Task.leads_branch shape listed taken .definition (.named name) rfl
  have places : Task.Alike (.node .definition (.named name) (.object branch))
      (.node .definition (.named site'.name) (.object branch)) := .node fun impossible => by cases impossible
  obtain ⟨fields', after, walked, expanded', agree⟩ := inside places (guard ▸ behind.leads leads) (acyclic.leads leads)
    (cache ▸ expanded) (fun impossible => by cases impossible)
  exact ⟨fields', after, .first shape' (Node.branches_of_ok site'.name listed) taken' walked, expanded', agree⟩

theorem merged {used : List Members} (inside : Delivers context answer (.merge name used) fields)
    (side : manner.side = .property)
    (shape : Shape.ofNode manner site node = .combination name members combinator)
    (structural : branches.all Node.isStructural = true)
    (taken : combinator.used answer branches = some used) :
    Delivers context answer (.node manner site node) [.object name (some false) fields []] := by
  intro task' before alike _ _ expanded complete
  obtain @⟨_, _, site', _, named⟩ := alike
  have shape' := Shape.alike_combination site' shape
  rw [← named side, ← (Shape.ofNode_combination shape).2.2] at shape'
  obtain ⟨middle, taken'⟩ := Combinator.take_of_used answers name taken before
  obtain ⟨_, cache⟩ := Walker.same_of_take taken'
  obtain ⟨fields', after, walked, expanded', erased⟩ := inside .merge (.of_property rfl) (.of_property rfl)
    (cache ▸ expanded)
    (fun _ => cache ▸ complete side)
  have erased : Field.eraseAll fields' = Field.eraseAll fields := erased
  refine ⟨_, after, .merged side shape' listed structural taken' walked, expanded', ?_⟩
  simp only [Agree, List.map_cons, List.map_nil, Field.bare_object, erased]

theorem scalar {branch : Members}
    (inside : Delivers context answer (.node .typed (.named name) (.object branch)) fields)
    (side : manner.side = .property) (shape : Shape.ofNode manner site node = .combination name members combinator)
    (scalars : branches.all Node.isStructural = false ∧ branches.any Node.isStructural = false)
    (alternative : combinator ≠ .allOf)
    (taken : combinator.used answer branches = some [branch]) :
    Delivers context answer (.node manner site node) fields := by
  intro task' before alike _ _ expanded complete
  obtain @⟨_, _, site', _, named⟩ := alike
  have shape' := Shape.alike_combination site' shape
  rw [← named side, ← (Shape.ofNode_combination shape).2.2] at shape'
  obtain ⟨middle, taken'⟩ := Combinator.take_of_used answers name taken before
  obtain ⟨_, cache⟩ := Walker.same_of_take taken'
  obtain ⟨fields', after, walked, expanded', bare⟩ := inside (.node fun _ => rfl) (.of_property rfl) (.of_property rfl)
    (cache ▸ expanded) (fun _ => cache ▸ complete side)
  exact ⟨fields', after, .scalar side shape' listed scalars alternative taken' walked, expanded', bare⟩

end

theorem allNil (side : Side) : Delivers context answer (.all side []) [] := by
  intro task' before alike _ _ expanded _
  obtain _ | ⟨_ | _⟩ := alike
  exact ⟨[], before, .allNil, expanded, rfl⟩

theorem allCons {side : Side} {inner : Inner} {rest : List Inner} {lookup : String → Field → Prop}
    (settles : Settles answer lookup (.node side.manner inner.site inner.node) [field])
    (here : Delivers context answer (.node side.manner inner.site inner.node) [field])
    (later : Delivers context answer (.all side rest) others) :
    Delivers context answer (.all side (inner :: rest)) (field :: others) := by
  intro task' before alike behind acyclic expanded complete
  obtain _ | each := alike
  obtain _ | @⟨_, inner', _, rest', ⟨named, same⟩, each⟩ := each
  have places : Task.Alike (.node side.manner inner.site inner.node) (.node side.manner inner'.site inner'.node) := by
    rw [← same]
    exact .node fun _ => named
  have sides : (Task.node side.manner inner.site inner.node).side = .property → side = .property := by
    cases side <;> exact id
  obtain ⟨fields', middle, here', expanded', agree⟩ := here places (behind.leads Task.leads_here)
    (acyclic.leads Task.leads_here) expanded (fun property => complete (sides property))
  obtain ⟨field', rfl, bare⟩ := Task.single_of_agree agree
  obtain ⟨others', after, later', expanded'', erased⟩ :=
    later (.all each) (here'.extends.guard ▸ behind.leads Task.leads_later)
    (acyclic.leads Task.leads_later) expanded' (fun property => (complete property).extends here'.extends)
  refine ⟨field' :: others', after, .allCons here' later', expanded'', ?_⟩
  obtain ⟨first, single, first_named⟩ := settles.named
  obtain rfl := (List.cons.inj single).1
  have names : field'.name = field.name := by
    rw [here'.named field' List.mem_cons_self, first_named, named]
  have erased : Field.eraseAll others' = Field.eraseAll others := erased
  simp only [Agree, Field.eraseAll, Field.erase_eq_of_bare names bare, erased]

theorem mergeNil (name : Option String) : Delivers context answer (.merge name []) [] := by
  intro task' before alike _ _ expanded _
  cases alike
  exact ⟨[], before, .mergeNil, expanded, rfl⟩

theorem mergeInline {branch : Members} {rest : List Members} (inline : Node.isReference branch = false)
    (here : Delivers context answer
      (.all .property (Shape.unlisted (Json.members (branch.given? "properties")))) fields)
    (later : Delivers context answer (.merge name rest) others) :
    Delivers context answer (.merge name (branch :: rest)) (fields ++ others) := by
  intro task' before alike _ _ expanded complete
  cases alike
  obtain ⟨fields', middle, walked, expanded', same⟩ := here (.all (Shape.alike_refl_unlisted _)) (.of_property rfl)
    (.of_property rfl) expanded complete
  obtain ⟨others', after, walked', expanded'', same'⟩ := later .merge (.of_property rfl) (.of_property rfl) expanded'
    (fun property => (complete property).extends walked.extends)
  refine ⟨fields' ++ others', after, .mergeInline inline walked walked', expanded'', ?_⟩
  simp only [Agree, Field.eraseAll_append] at same same' ⊢
  rw [same, same']

theorem mergeReference {branch : Members} {rest : List Members} (reference : Node.isReference branch = true)
    (refers : Node.target branch = .ok target) (expands : Expands context.definitions answer target field)
    (adds : field.added name branch = .ok fields) (later : Delivers context answer (.merge name rest) others) :
    Delivers context answer (.merge name (branch :: rest)) (fields ++ others) := by
  intro task' before alike _ _ expanded complete
  cases alike
  obtain ⟨field', known'⟩ := complete rfl target field expands
  obtain ⟨fields', adds', erased⟩ := Field.alike_added (expanded.erase_eq known' expands) adds
  obtain ⟨others', after, walked, expanded', same'⟩ :=
    later .merge (.of_property rfl) (.of_property rfl) expanded complete
  refine ⟨fields' ++ others', after, .mergeReference reference refers known' adds' walked, expanded', ?_⟩
  simp only [Agree, Field.eraseAll_append] at same' ⊢
  rw [erased, same']

end Task.Delivers

/-- The induction is on the rounds that the expansion takes, and for each of them on how the node comes to something. -/
theorem Settles.delivers {context : Context σ} {answer : Int → Except ChoiceError Int}
    (answers : context.selector.Answers answer)
    {rounds : Nat} {task : Task} {fields : List Field}
    (settles : Settles answer (ExpandsWithin context.definitions answer rounds) task fields) :
    task.Delivers context answer fields := by
  induction rounds using Nat.strongRecOn generalizing task fields with
  | ind rounds fewer =>
  induction settles with
  | leaf shape => exact Task.Delivers.leaf shape
  | group shape _ makes ih => exact ih.group shape makes
  | followed shape refers known =>
    cases rounds with
    | zero => exact known.elim
    | succ rounds =>
      obtain ⟨body, given, settles⟩ := known
      have inside := fewer rounds (Nat.lt_succ_self _) settles
      exact Task.Delivers.followed inside shape refers given ⟨rounds + 1, body, given, settles⟩
  | declared side shape refers known takes => exact Task.Delivers.declared side shape refers ⟨rounds, known⟩ takes
  | empty shape listed taken => exact Task.Delivers.empty answers listed shape taken
  | first shape listed taken _ ih => exact Task.Delivers.first answers listed ih shape taken
  | merged side shape listed structural taken _ ih =>
    exact Task.Delivers.merged answers listed ih side shape structural taken
  | scalar side shape listed scalars alternative taken _ ih =>
    exact Task.Delivers.scalar answers listed ih side shape scalars alternative taken
  | allNil => exact Task.Delivers.allNil _
  | allCons here _ ihHere ihLater => exact Task.Delivers.allCons here ihHere ihLater
  | mergeNil => exact Task.Delivers.mergeNil _
  | mergeInline inline _ _ ihHere ihLater => exact Task.Delivers.mergeInline inline ihHere ihLater
  | mergeReference reference refers known adds _ ih =>
    exact Task.Delivers.mergeReference reference refers ⟨rounds, known⟩ adds ih

section
variable {context : Context σ} {answer : Int → Except ChoiceError Int} {before : State σ}

/-- A definition that expands is cached after its turn, unless it was before. -/
theorem Expands.defines (answers : context.selector.Answers answer) {name : String} {node : Json} {field : Field}
    (expands : Expands context.definitions answer name field) (found : context.definitions.get? name = some node)
    (plain : node.isPlain = true) (acyclic : Acyclic context.definitions name) (guard : before.guard = [])
    (expanded : before.cache.Expanded context.definitions answer) :
    ∃ after, Defines context name node before after ∧ before.Extends after ∧
      after.cache.Expanded context.definitions answer ∧ ∃ made, after.cache.get? name = some made := by
  obtain ⟨rounds, within⟩ := expands
  cases rounds with
  | zero => exact within.elim
  | succ rounds =>
    obtain ⟨body, given, settles⟩ := within
    obtain rfl := Option.some.inj (found.symm.trans (Members.get?_of_given? given))
    have free : (before.logged (.resolving name)).guard = [] := guard
    have begun : (before.logged (.resolving name)).cache.Expanded context.definitions answer := expanded
    obtain ⟨fields', middle, walked, expanded', agree⟩ := settles.delivers answers (.node fun _ => rfl)
      (.unguarded free) (acyclic.body given _) begun (fun impossible => by cases impossible)
    obtain ⟨made, rfl, bare⟩ := Task.single_of_agree agree
    have grows : before.Extends middle := (State.Extends.logged before (.resolving name)).trans walked.extends
    cases cached : middle.cache.get? name with
    | some known =>
      exact ⟨_, .kept plain walked cached, grows.trans (.logged _ _), expanded', known, cached⟩
    | none =>
      have expands : Expands context.definitions answer name field := ⟨rounds + 1, body, given, settles⟩
      have same : made.erase = field.erase := by
        refine Field.erase_eq_of_bare ?_ bare
        rw [walked.named made List.mem_cons_self, expands.named]
        rfl
      have free : name ∉ middle.guard := by
        rw [grows.guard, guard]
        exact List.not_mem_nil
      refine ⟨_, .stored plain walked cached, grows.trans (.stored _ _ cached free), expanded'.keep expands same,
        made, ?_⟩
      exact State.get?_keep_self middle name made []

theorem definesAll_of_expands (answers : context.selector.Answers answer) {members : Members}
    (found : ∀ entry ∈ members, context.definitions.get? entry.1 = some entry.2)
    (plain : ∀ entry ∈ members, entry.2.isPlain = true)
    (acyclic : ∀ entry ∈ members, Acyclic context.definitions entry.1)
    (expands : ∀ entry ∈ members, ∃ field, Expands context.definitions answer entry.1 field) (guard : before.guard = [])
    (expanded : before.cache.Expanded context.definitions answer) :
    ∃ after, DefinesAll context members before after ∧ before.Extends after ∧
      after.cache.Expanded context.definitions answer ∧
        ∀ entry ∈ members, ∃ field, after.cache.get? entry.1 = some field := by
  induction members generalizing before with
  | nil => exact ⟨before, .nil, .refl _, expanded, List.forall_mem_nil _⟩
  | cons entry rest ih =>
    obtain ⟨name, node⟩ := entry
    obtain ⟨here, found⟩ := List.forall_mem_cons.mp found
    obtain ⟨plainHere, plain⟩ := List.forall_mem_cons.mp plain
    obtain ⟨acyclicHere, acyclic⟩ := List.forall_mem_cons.mp acyclic
    obtain ⟨⟨field, expandsHere⟩, expands⟩ := List.forall_mem_cons.mp expands
    obtain ⟨middle, defines, grows, expanded', made, known⟩ :=
      expandsHere.defines answers here plainHere acyclicHere guard expanded
    obtain ⟨after, later, grows', expanded'', all⟩ := ih found plain acyclic expands (grows.guard.trans guard) expanded'
    refine ⟨after, .cons defines later, grows.trans grows', expanded'', List.forall_mem_cons.mpr ⟨⟨made, ?_⟩, all⟩⟩
    exact grows'.known name made known

end

/-- Whether an acyclic document resolves depends on its expansions only. -/
theorem Document.passes_of_expands {root : Members} {selector : Selector σ} {answer : Int → Except ChoiceError Int}
    (answers : selector.Answers answer) (start : σ)
    (distinct : Entries.Distinct root.declarations)
    (plain : ∀ entry ∈ root.declarations, entry.2.isPlain = true)
    (acyclic : ∀ entry ∈ root.declarations, Acyclic root.declarations entry.1)
    (expands : ∀ entry ∈ root.declarations,
      ∃ field, Expands root.declarations answer entry.1 field)
    {fields : List Field}
    (settles : Settles answer (Expands root.declarations answer) (.all .property (outer root)) fields) :
    ∃ middle properties after, Passes root selector start middle properties after := by
  have fresh : (State.fresh start).cache.Expanded root.declarations answer :=
    fun _ _ impossible => by cases impossible
  obtain ⟨middle, defines, grows, expanded, known⟩ := @definesAll_of_expands _ (context root selector) _
    (State.fresh start)
    answers _ (fun entry among => distinct.get?_of_mem among) plain acyclic expands rfl fresh
  have complete : middle.cache.Complete root.declarations answer := by
    intro name expanded expands
    obtain ⟨body, given, _⟩ := expands_iff.mp expands
    exact known _ (Members.mem_of_given? given)
  obtain ⟨rounds, within⟩ := settles.within
  have delivers : Task.Delivers (context root selector) answer (.all .property (outer root)) fields :=
    within.delivers answers
  obtain ⟨properties, after, walked, _⟩ := delivers (.all (List.forall₂_same.mpr fun _ _ => ⟨rfl, rfl⟩))
    (.of_property rfl)
    (.of_property rfl) expanded (fun _ => complete)
  exact ⟨middle, properties, after, defines, walked⟩

end FieldTree
