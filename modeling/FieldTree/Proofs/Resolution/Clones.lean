import FieldTree.Proofs.Resolution.Aliases
import FieldTree.Proofs.Resolution.Order

/-! A definition that refers to another comes out as a renamed copy of it, with one exception: if the other is cached
when the turn of the definition comes, the node of the definition is resolved, and a type beside the reference
prevails. On a turn before that of the other it is the body of the other that is resolved, whatever the node says. -/

namespace FieldTree
open Relation

variable {σ : Type}

/-- Whether a definition goes by what its node tells beside a reference: by its type or, if that is object, by what the
object has. -/
def Node.tellsOwn (node : Members) : Bool :=
  hasType node && (type? node != some .object || (combinator? node).isSome ||
    (node.given? "properties").any Json.isObject || !(Json.members (node.given? "additionalProperties")).isEmpty)

namespace Shape
open Node

variable {side : Side} {site : Site} {node : Members}

theorem ofResult_ne_reference (result : Except SemanticError Field) (site : Site) (node : Members) :
    ofResult result ≠ .reference site node := by
  cases result <;> simp [ofResult]

theorem ofType_eq_reference {type : BaseType} (same : ofType side site node type = .reference site node) :
    type = .object := by
  cases type with
  | object => rfl
  | integer => cases same
  | boolean => cases same
  | number => exact absurd same (ofResult_ne_reference _ site node)
  | text => exact absurd same (ofResult_ne_reference _ site node)
  | array =>
    simp only [ofType] at same
    split at same <;> cases same

theorem ofObject_eq_reference_iff (reference : isReference node = true) :
    ofObject side site node = .reference site node ↔ combinator? node = none ∧
      (node.given? "properties").any Json.isObject = false ∧
        Json.members (node.given? "additionalProperties") = [] := by
  cases single : combinator? node with
  | some combinator => simp [ofObject, single]
  | none =>
    simp only [ofObject, single, true_and]
    split
    next given => simp [given, Json.isObject, Json.members?]
    next given _ => simp [given, Json.members, Json.members?]
    next unlisted unmapped =>
      simp only [if_pos reference, true_iff]
      constructor
      · cases given : node.given? "properties" with
        | none => rfl
        | some value =>
          cases value with
          | object properties => exact absurd given (unlisted properties)
          | _ => rfl
      · cases given : node.given? "additionalProperties" with
        | none => rfl
        | some value =>
          cases value with
          | object values =>
            cases values with
            | nil => rfl
            | cons member values => exact absurd given (unmapped member values)
          | _ => rfl

/-- A definition is taken for its reference exactly if it tells no more. -/
theorem ofNode_eq_reference_iff (reference : isReference node = true) (site : Site) :
    ofNode .definition site (.object node) = .reference site node ↔ tellsOwn node = false := by
  cases typed : hasType node with
  | false => simp only [ofNode_alias reference typed site, tellsOwn, typed, Bool.false_and]
  | true =>
    simp only [ofNode, typed, ite_true, ofTyped, tellsOwn, Bool.true_and]
    cases told : type? node with
    | none => simp
    | some type =>
      by_cases object : type = .object
      · subst object
        simp only [ofType, ofObject_eq_reference_iff reference]
        simp [Bool.or_assoc]
      · constructor
        · intro same
          exact absurd (ofType_eq_reference same) object
        · simp [object]

end Shape

/-- No reference that the definition leads to tells more. What it comes to would depend on whether it is asked for
before its turn. -/
def Members.Untyped (definitions : Members) (name : String) : Prop :=
  ∀ reached members, ReflTransGen (Refers definitions) name reached →
    definitions.given? reached = some (.object members) → Node.isReference members = true →
      Node.tellsOwn members = false

/-- What is cached for the definition, once those that have passed had their turns, is not changed any more. -/
def Members.Lasting (definitions passed : Members) (name : String) : Prop :=
  name ∈ passed.map Prod.fst ∨
    (∀ body, definitions.given? name = some (.object body) → Node.isReference body = false) ∨ definitions.Untyped name

/-- One of the names leads there. -/
def Members.Led (definitions : Members) (names : List String) (reached : String) : Prop :=
  ∃ name ∈ names, ReflTransGen (Refers definitions) name reached

section
variable {definitions : Members} {names : List String}

theorem Members.led_self {name : String} (among : name ∈ names) : definitions.Led names name := ⟨name, among, .refl⟩

theorem Members.closed_led (acyclic : ∀ name, Acyclic definitions name) : definitions.Closed (definitions.Led names) :=
  ⟨fun _ => acyclic _, fun ⟨name, among, path⟩ refers => ⟨name, among, path.tail refers⟩⟩

theorem Members.faithful_led (untyped : ∀ name ∈ names, definitions.Untyped name) :
    definitions.Faithful (definitions.Led names) :=
  fun ⟨name, among, path⟩ given reference =>
    fun site => (Shape.ofNode_eq_reference_iff reference site).mpr (untyped name among _ _ path given reference)

/-- Names that refer to one another only lead nowhere else. -/
theorem Members.Untyped.of_names (inside : ∀ name ∈ names, ∀ target ∈ definitions.targets name, target ∈ names)
    (none : ∀ name ∈ names, (definitions.given? name).all fun body => body.members?.all fun members =>
      !(Node.isReference members && Node.tellsOwn members))
    {name : String} (among : name ∈ names) : definitions.Untyped name := by
  intro reached members path given reference
  have reached_among : reached ∈ names := by
    clear given
    induction path with
    | refl => exact among
    | tail _ refers ih =>
      obtain ⟨body, given, member⟩ := refers
      refine inside _ ih _ ?_
      simpa only [targets, given, Option.map_some, Option.getD_some] using member
  have here := none reached reached_among
  simpa [given, Json.members?, reference] using here

end

section
variable {context : Context σ} {name : String} {before after : State σ}

/-- A name keeps its field on the turns of the others, and on its own if that is not the turn of a reference. -/
theorem Defines.keeps {node : Json} (defines : Defines context name node before after) {other : String}
    (apart : name ≠ other ∨ node.isPlain = true) {field : Field} (known : before.cache.get? other = some field) :
    after.cache.get? other = some field := by
  have different : ∀ {members : Members}, node = .object members → Node.isReference members = true → name ≠ other := by
    rintro members rfl reference
    exact apart.resolve_right (by simp [Json.isPlain, reference])
  cases defines with
  | vanished _ walked => exact walked.extends.known other field known
  | kept _ walked => exact walked.extends.known other field known
  | @stored made last _ walked new =>
    exact State.persists_keep_new [made] new other field (walked.extends.known other field known)
  | @aliased members target _ fields last same reference _ _ walked =>
    exact (State.get?_keep last name fields (different same reference)).trans (walked.extends.known other field known)
  | @ahead members target body fields last same reference _ _ _ _ _ walked =>
    exact (State.get?_keep _ name fields (different same reference)).trans (walked.extends.known other field known)

theorem DefinesAll.keeps {members : Members} (defines : DefinesAll context members before after) {other : String}
    (apart : ∀ entry ∈ members, entry.1 ≠ other ∨ entry.2.isPlain = true) {field : Field}
    (known : before.cache.get? other = some field) : after.cache.get? other = some field := by
  induction defines with
  | nil => exact known
  | cons here _ ih =>
    exact ih (fun entry among => apart entry (List.mem_cons_of_mem _ among))
      (here.keeps (apart _ List.mem_cons_self) known)

/-- The turn of a definition with a reference: the node itself is walked if the target is cached, or else the body of
the target. -/
theorem Defines.alias {node : Members} {target : String} (defines : Defines context name (.object node) before after)
    (refers : Node.target node = .ok target) :
    (∃ known fields last, before.cache.get? target = some known ∧
      Yields context (.node .definition (.named name) (.object node)) (before.logged (.resolving name)) fields last ∧
      after = last.keep name fields) ∨
    (before.cache.get? target = none ∧ ∃ body fields last, context.definitions.given? target = some (.object body) ∧
      Node.isReference body = false ∧
      Yields context (.node .definition (.named name) (.object body))
        ((before.logged (.resolving name)).under (target :: before.guard)) fields last ∧
      after = (last.under (last.guard.erase target)).keep name fields) := by
  have never_plain : (Json.object node).isPlain = true → False := by
    simp [Json.isPlain, Node.isReference_of_target refers]
  cases defines with
  | vanished plain => exact (never_plain plain).elim
  | kept plain => exact (never_plain plain).elim
  | stored plain => exact (never_plain plain).elim
  | aliased same _ refers' found walked =>
    cases same
    cases refers.symm.trans refers'
    exact .inl ⟨_, _, _, found, walked, rfl⟩
  | ahead same _ refers' unknown _ given plain walked =>
    cases same
    cases refers.symm.trans refers'
    exact .inr ⟨unknown, _, _, _, given, plain, walked, rfl⟩

end

/-- The pass over the definitions, and the turn of one of them. -/
structure Context.Turn (context : Context σ) (start : σ) (passed : Members) (name : String) (node : Json)
    (rest : Members) (before turned after : State σ) : Prop where
  declared : context.definitions = passed ++ (name, node) :: rest
  distinct : context.definitions.Distinct
  earlier : DefinesAll context passed (State.fresh start) before
  here : Defines context name node before turned
  later : DefinesAll context rest turned after

/-- What is settled under clear names when the turn comes, and after the pass. Nothing of it is lost in between. -/
structure Context.Settled (context : Context σ) (answer : Int → Except ChoiceError Int) (clear : String → Prop)
    (before turned after : State σ) : Prop where
  guard : before.guard = []
  begun : ∃ passed, before.cache.SettledOn clear context.definitions answer passed
  grows : ∀ name, clear name → ∀ field, turned.cache.knows name field → after.cache.knows name field
  ended : ∃ passed, after.cache.SettledOn clear context.definitions answer passed
  known : ∀ name ∈ context.definitions.map Prod.fst, clear name → ∃ field, after.cache.knows name field

namespace Context.Turn

variable {context : Context σ} {start : σ} {passed rest : Members} {name : String} {node : Json}
  {before middle after : State σ}

theorem declared_append (turn : context.Turn start passed name node rest before middle after) :
    context.definitions = (passed ++ [(name, node)]) ++ rest := by
  rw [turn.declared, List.append_assoc, List.singleton_append]

theorem distinct_append (turn : context.Turn start passed name node rest before middle after) :
    Entries.Distinct (passed ++ [(name, node)]) ∧ Entries.Distinct rest ∧
      ∀ other ∈ rest.map Prod.fst, other ∉ (passed ++ [(name, node)]).map Prod.fst := by
  have distinct := turn.distinct
  rw [turn.declared_append, Entries.Distinct, List.map_append, List.nodup_append] at distinct
  obtain ⟨first, second, apart⟩ := distinct
  exact ⟨first, second, fun other among earlier => apart other earlier other among rfl⟩

/-- A definition whose turn is over stays as it is. -/
theorem keeps (turn : context.Turn start passed name node rest before middle after) {other : String}
    (among : other ∈ (passed ++ [(name, node)]).map Prod.fst) {field : Field}
    (known : middle.cache.get? other = some field) : after.cache.get? other = some field := by
  refine turn.later.keeps (fun entry further => .inl ?_) known
  rintro rfl
  exact turn.distinct_append.2.2 entry.1 (List.mem_map_of_mem further) among

theorem settled {answer : Int → Except ChoiceError Int} {clear : String → Prop}
    (turn : context.Turn start passed name node rest before middle after)
    (closed : context.definitions.Closed clear) (faithful : context.definitions.Faithful clear)
    (answers : context.selector.Answers answer) : context.Settled answer clear before middle after := by
  obtain ⟨through, second, apart⟩ := turn.distinct_append
  have first : Entries.Distinct passed := by
    rw [Entries.Distinct, List.map_append] at through
    exact (List.nodup_append.mp through).1
  have found : ∀ entry ∈ (passed ++ [(name, node)]) ++ rest, context.definitions.get? entry.1 = some entry.2 :=
    fun entry among => turn.distinct.get?_of_mem (turn.declared_append ▸ among)
  have fresh : (State.fresh start).cache.SettledOn clear context.definitions answer [] :=
    fun _ _ _ impossible => by cases impossible
  have new : ∀ names : List String, ∀ other ∈ names, other ∉ ([] : List String) := fun _ _ _ => List.not_mem_nil
  obtain ⟨reached, _⟩ := turn.earlier.reachedOn closed faithful answers
    (fun entry among => found entry (List.mem_append_left _ (List.mem_append_left _ among))) first (new _) rfl fresh
  obtain ⟨reached', known'⟩ := (turn.earlier.append (.cons turn.here .nil)).reachedOn closed faithful answers
    (fun entry among => found entry (List.mem_append_left _ among)) through (new _) rfl fresh
  obtain ⟨ended, known⟩ := turn.later.reachedOn closed faithful answers
    (fun entry among => found entry (List.mem_append_right _ among)) second
    (fun other among => by simpa only [List.append_nil, List.mem_reverse] using apart other among)
    reached'.guard reached'.settled
  refine ⟨reached.guard, ⟨_, reached.settled⟩, ended.grows, ⟨_, ended.settled⟩, fun other among here => ?_⟩
  rw [turn.declared_append, List.map_append] at among
  rcases List.mem_append.mp among with earlier | later
  · obtain ⟨field, there⟩ := known' other earlier here
    exact ⟨field, ended.grows other here field there⟩
  · exact known other later here

end Context.Turn

/-- What is settled before the turn stores its field is settled in the end, if it refers to clear names only. -/
theorem Context.Settled.lasts {context : Context σ} {answer : Int → Except ChoiceError Int} {clear : String → Prop}
    {name : String} {made fields : List Field} {before last after : State σ}
    (settled : context.Settled answer clear before (last.keep name made) after)
    (acyclic : Acyclic context.definitions name) {task : Task} (comes : Settles answer last.cache.knows task fields)
    (clears : ∀ other ∈ task.references, clear other ∧ TransGen (Refers context.definitions) name other) :
    Settles answer after.cache.knows task fields := by
  refine comes.mono fun other among field known => ?_
  obtain ⟨here, path⟩ := clears other among
  have different : name ≠ other := by
    rintro rfl
    exact acyclic.irreflexive path
  exact settled.grows other here field ((State.get?_keep last name made different).trans known)

theorem Source.eq_of_plain {definitions body body' : Members} {passed : List String} {name : String}
    (source : Source definitions passed name body) (given : definitions.given? name = some (.object body'))
    (plain : Node.isReference body' = false) : body = body' := by
  cases source with
  | own given' =>
    cases given'.symm.trans given
    rfl
  | behind _ given' reference =>
    cases given'.symm.trans given
    cases plain.symm.trans reference

theorem Entries.Distinct.given?_of_mem {members : Members} (distinct : members.Distinct) {name : String}
    {body : Members} (among : (name, Json.object body) ∈ members) : members.given? name = some (.object body) := by
  simp only [Members.given?, distinct.get?_of_mem among]

namespace Context.Turn

variable {context : Context σ} {start : σ} {passed rest : Members} {name target : String} {node : Members}
  {before middle after : State σ} {answer : Int → Except ChoiceError Int}

theorem given (turn : context.Turn start passed name (.object node) rest before middle after) :
    context.definitions.given? name = some (.object node) :=
  turn.distinct.given?_of_mem (turn.declared ▸ List.mem_append_right _ List.mem_cons_self)

/-- The turn keeps what comes of it until the end. -/
theorem keeps_own (turn : context.Turn start passed name (.object node) rest before middle after) {last : State σ}
    {field : Field} (same : middle = last.keep name [field]) : after.cache.get? name = some field := by
  refine turn.keeps ?_ (same ▸ State.get?_keep_self last name field [])
  rw [List.map_append]
  exact List.mem_append_right _ List.mem_cons_self

/-- A reference to what is cached is stored as a copy of it, if the node tells no more. -/
theorem reuses (turn : context.Turn start passed name (.object node) rest before middle after)
    (acyclic : Acyclic context.definitions name) (refers : Node.target node = .ok target)
    (alone : Node.tellsOwn node = false) {known : Field} (cached : before.cache.get? target = some known) :
    middle.cache.get? target = some known ∧ after.cache.get? name = some (known.rename (some name)) := by
  have reference := Node.isReference_of_target refers
  rcases turn.here.alias refers with ⟨known', fields, last, cached', walked, same⟩ | ⟨unknown, _⟩
  · cases cached.symm.trans cached'
    have shape := (Shape.ofNode_eq_reference_iff reference (.named (some name))).mpr alone
    have there : (before.logged (.resolving name)).cache.get? target = some known := cached
    obtain ⟨rfl, rfl⟩ := (Yields.reused shape refers there).unique walked
    have different : name ≠ target := by
      rintro rfl
      exact acyclic.irreflexive (.single ⟨_, turn.given, Node.mem_references reference refers⟩)
    refine ⟨?_, turn.keeps_own same⟩
    rw [same, State.get?_keep _ name _ different]
    exact cached
  · cases cached.symm.trans unknown

theorem lasts (turn : context.Turn start passed name (.object node) rest before middle after)
    (acyclic : ∀ name, Acyclic context.definitions name) (answers : context.selector.Answers answer)
    (lasting : context.definitions.Lasting passed target) {known : Field}
    (cached : middle.cache.get? target = some known) : after.cache.get? target = some known := by
  rcases lasting with earlier | plain | untyped
  · refine turn.keeps ?_ cached
    rw [List.map_append]
    exact List.mem_append_left _ earlier
  · refine turn.later.keeps (fun entry among => ?_) cached
    by_cases same : entry.1 = target
    · right
      obtain ⟨other, value⟩ := entry
      obtain rfl := same
      cases value with
      | object body =>
        have declared := turn.declared ▸ List.mem_append_right _ (List.mem_cons_of_mem _ among)
        simp only [Json.isPlain, plain body (turn.distinct.given?_of_mem declared), Bool.not_false]
      | _ => rfl
    · exact .inl same
  · have settled := turn.settled (Members.closed_led acyclic)
      (Members.faithful_led (List.forall_mem_singleton.mpr untyped)) answers
    exact settled.grows target (Members.led_self List.mem_cons_self) known cached

/-- A reference to what is not cached yet comes out as that does later, but for what is required. -/
theorem foresees (turn : context.Turn start passed name (.object node) rest before middle after)
    (acyclic : ∀ name, Acyclic context.definitions name) (answers : context.selector.Answers answer)
    (refers : Node.target node = .ok target) (untyped : context.definitions.Untyped target)
    (unknown : before.cache.get? target = none) :
    ∃ known field, after.cache.get? target = some known ∧ after.cache.get? name = some field ∧
      field.erase = (known.rename (some name)).erase := by
  rcases turn.here.alias refers with ⟨known, _, _, cached, _⟩ | ⟨_, body, fields, last, given, plain, walked, same⟩
  · cases unknown.symm.trans cached
  have closed := @Members.closed_led _ [target] acyclic
  have settled := turn.settled closed (Members.faithful_led (List.forall_mem_singleton.mpr untyped)) answers
  have here := context.definitions.led_self (List.mem_singleton_self target)
  have among := Node.mem_references (Node.isReference_of_target refers) refers
  have outside : Task.Behind context.definitions before.guard (.node .definition (.named (some name)) (.object node)) :=
    .unguarded settled.guard
  obtain ⟨_, begun⟩ := settled.begun
  obtain ⟨_, comes⟩ := walked.settlesOn closed answers (outside.enter among given _) begun
  have made := comes (closed.body here given _)
  obtain ⟨field, rfl, named⟩ := made.named
  subst same
  have finally_made := settled.lasts (acyclic name) made fun other deeper =>
    ⟨closed.step here ⟨_, given, deeper⟩, .tail (.single ⟨_, turn.given, among⟩) ⟨_, given, deeper⟩⟩
  -- At the end the target is what the same body comes to at another place.
  obtain ⟨known, found⟩ := settled.known target (List.mem_map_of_mem (Members.mem_of_given? given)) here
  obtain ⟨_, ended⟩ := settled.ended
  obtain ⟨site, body', _, source, comes'⟩ := ended target known here found
  cases source.eq_of_plain given plain
  obtain ⟨others, again, agree⟩ := @Settles.alike _ _ after.cache.knows _ (.node .definition (.named (some name)) _) _
    comes' (.node fun impossible => by cases impossible) fun _ _ field found => ⟨field, found, rfl⟩
  obtain ⟨field', rfl, bare⟩ := Task.single_of_agree agree
  cases finally_made.unique again fun _ _ _ _ one two => Option.some.inj (one.symm.trans two)
  refine ⟨known, field, found, turn.keeps_own rfl, Field.erase_eq_of_bare ?_ ?_⟩
  · rw [named, Field.name_rename]
    rfl
  · rw [bare, Field.bare_rename]

/-- A reference to what is cached comes to what its node says, and that is what the node says in the end. -/
theorem resolves (turn : context.Turn start passed name (.object node) rest before middle after)
    (acyclic : ∀ name, Acyclic context.definitions name) (answers : context.selector.Answers answer)
    (refers : Node.target node = .ok target)
    (untyped : ∀ other ∈ (Json.object node).references, context.definitions.Untyped other) {known : Field}
    (cached : before.cache.get? target = some known) :
    ∃ field, after.cache.get? name = some field ∧
      Settles answer after.cache.knows (.node .definition (.named (some name)) (.object node)) [field] := by
  rcases turn.here.alias refers with ⟨_, fields, last, _, walked, rfl⟩ | ⟨unknown, _⟩
  · have closed := @Members.closed_led _ (Json.object node).references acyclic
    have settled := turn.settled closed (Members.faithful_led untyped) answers
    obtain ⟨_, begun⟩ := settled.begun
    obtain ⟨_, comes⟩ := walked.settlesOn closed answers (.unguarded settled.guard) begun
    have made := comes fun _ other among => Members.led_self among
    obtain ⟨field, rfl, _⟩ := made.named
    refine ⟨field, turn.keeps_own rfl, settled.lasts (acyclic name) made fun other among => ?_⟩
    exact ⟨Members.led_self among, .single ⟨_, turn.given, among⟩⟩
  · cases cached.symm.trans unknown

end Context.Turn

namespace Document
open Resolve Walker

variable {root passed rest : Members} {bound : Nat} {selector : Selector σ} {start : σ}

/-- What is cached when the pass over the definitions has come so far. -/
def cachedAfter (bound : Nat) (selector : Selector σ) (start : σ) (root passed : Members) : Entries Field :=
  ((definitions (context root selector) (walker (context root selector) bound) passed).outcome
    (State.fresh start)).2.cache

theorem cachedAfter_of_choiceless {τ : Type} (choiceless : (Json.object root).Choiceless)
    (among : ∀ entry ∈ passed, entry ∈ root.declarations) (bound : Nat) (selector : Selector σ) (start : σ)
    (selector' : Selector τ) (start' : τ) :
    cachedAfter bound selector start root passed = cachedAfter bound selector' start' root passed := by
  have inside : ∀ entry ∈ root.declarations, entry.2.Choiceless := fun entry => choiceless.member
  have contexts := contexts_unasked (fun _ _ => True) root selector selector'
  have begins : (context root selector).Begins fun _ node => node.Choiceless :=
    ⟨inside, fun _ _ given => inside _ (Members.mem_of_given? given)⟩
  have runs := definitions_runs (walker_paired contexts (leads_of_choiceless inside) trivial bound) contexts begins
    passed fun entry here => inside entry (among entry here)
  have fresh : (Pairing.alongside fun _ _ => True).states [] (State.fresh start) (State.fresh start') :=
    ⟨⟨rfl, rfl⟩, rfl, rfl, trivial⟩
  obtain ⟨_, together, _⟩ := runs.alike (fun _ => id) fresh
  exact (Pairing.alongside _).caches together

theorem definesAll_of_resolved {document : Document} {schema : Schema} (rooted : document.root = .ok root)
    (resolved : (document.resolveWithin bound selector start).result = .ok schema)
    (declared : root.declarations = passed ++ rest) :
    ∃ before, before.cache = cachedAfter bound selector start root passed ∧
      DefinesAll (context root selector) passed (State.fresh start) before := by
  rw [resolveWithin_of_root rooted] at resolved
  have ends : (Document.schema (context root selector) (walker (context root selector) bound) root).Ends
      (State.fresh start) schema (run bound selector start root).2 := Prod.ext resolved rfl
  obtain ⟨_, middle, all, _⟩ := ends_bind.mp ends
  have all : (definitions (context root selector) (walker (context root selector) bound) (passed ++ rest)).Ends
      (State.fresh start) () middle := declared ▸ all
  rw [definitions_append] at all
  obtain ⟨_, before, first, _⟩ := ends_bind.mp all
  have cached := congrArg (fun outcome => outcome.2.cache) first
  exact ⟨before, cached.symm, definesAll_of_ends (sound_walker _ bound) first⟩

theorem turn_of_resolved {document : Document} {schema : Schema} (rooted : document.root = .ok root)
    (distinct : Entries.Distinct root.declarations)
    (resolved : (document.resolveWithin bound selector start).result = .ok schema) {name : String} {node : Json}
    (declared : root.declarations = passed ++ (name, node) :: rest) :
    ∃ before middle after, (context root selector).Turn start passed name node rest before middle after ∧
      before.cache = cachedAfter bound selector start root passed ∧ schema.definitions = after.cache := by
  obtain ⟨before, cached, earlier⟩ := definesAll_of_resolved rooted resolved declared
  obtain ⟨_, after, properties, last, rooted', passes, rfl⟩ := passes_of_resolved resolved
  cases rooted.symm.trans rooted'
  have pass := passes.definitions
  rw [declared] at pass
  obtain ⟨before', earlier', onward⟩ := pass.of_append
  obtain rfl := earlier.unique earlier'
  cases onward with
  | cons here later =>
    exact ⟨_, _, after, ⟨declared, distinct, earlier, here, later⟩, cached, passes.properties.cache_of_property rfl⟩

end Document

/-- What the schema says of a definition with a reference, depending on what is cached when its turn comes after those
that have passed: of the target a copy, or what the node of the definition comes to. -/
structure Schema.Copies (schema : Schema) (definitions passed : Members) (cached : Entries Field) (name target : String)
    (node : Members) : Prop where
  reused : cached.has target = true → Node.tellsOwn node = false → definitions.Lasting passed target →
    ∃ known, Entries.get? schema.definitions target = some known ∧
      Entries.get? schema.definitions name = some (known.rename (some name))
  ahead : cached.has target = false → definitions.Untyped target →
    ∃ known field, Entries.get? schema.definitions target = some known ∧
      Entries.get? schema.definitions name = some field ∧ field.erase = (known.rename (some name)).erase
  own : cached.has target = true → (∀ other ∈ (Json.object node).references, definitions.Untyped other) →
    ∃ field, Entries.get? schema.definitions name = some field ∧
      Settles Selector.always (Entries.knows schema.definitions)
        (.node .definition (.named (some name)) (.object node)) [field]

namespace Document

/-- In an acyclic document without alternatives a definition with a reference is a renamed copy of its target, whatever
else it tells, if its turn comes before the target is cached; then the two may differ in what is required. If the target
is cached already, the definition is the very same under its own name, unless it tells more: then it is what its node
comes to. -/
theorem alias_copies {document : Document} {root : Members} {schema : Schema} {bound : Nat} {selector : Selector σ}
    {start : σ} (wellFormed : document.WellFormed) (choiceless : document.Choiceless)
    (acyclic : ∀ entry ∈ document.declarations, Acyclic document.declarations entry.1)
    (rooted : document.root = .ok root)
    (resolved : (document.resolveWithin bound selector start).result = .ok schema) {passed rest node : Members}
    {name target : String} (declared : root.declarations = passed ++ (name, .object node) :: rest)
    (refers : Node.target node = .ok target) :
    schema.Copies root.declarations passed (cachedAfter bound selector start root passed) name target node := by
  have distinct := distinct_declarations wellFormed
  rw [declarations_of_root rooted] at acyclic distinct
  have acyclic := Acyclic.of_declared acyclic
  rw [result_of_choiceless choiceless bound selector start Selector.first ()] at resolved
  rw [cachedAfter_of_choiceless (choiceless root rooted) (fun entry among => declared ▸ List.mem_append_left _ among)
    bound selector start Selector.first ()]
  obtain ⟨before, middle, after, turn, cached, stored⟩ := turn_of_resolved rooted distinct resolved declared
  rw [← cached]
  constructor
  all_goals rw [stored]
  · intro has alone lasting
    obtain ⟨known, there⟩ := Option.isSome_iff_exists.mp has
    obtain ⟨kept, copied⟩ := turn.reuses (acyclic name) refers alone there
    exact ⟨known, turn.lasts acyclic Selector.first_answers lasting kept, copied⟩
  · intro unknown untyped
    have absent : before.cache.get? target = none := by simpa [Entries.has] using unknown
    exact turn.foresees acyclic Selector.first_answers refers untyped absent
  · intro has untyped
    obtain ⟨known, there⟩ := Option.isSome_iff_exists.mp has
    exact turn.resolves acyclic Selector.first_answers refers untyped there

/-- A house and an office at one address, and a label that is a text, though it refers to the address as well. -/
def letters : Members :=
  [("definitions", .object
    [("Home", .object [("$ref", .string "#/definitions/Address"), ("type", .string "string")]),
     ("Address", .object [("type", .string "object"), ("properties", .object
       [("lines", .object [("type", .string "array"), ("items", .object [("type", .string "string")])])])]),
     ("Office", .object [("$ref", .string "#/definitions/Address"), ("type", .string "object")]),
     ("Label", .object [("$ref", .string "#/definitions/Address"), ("type", .string "string")])])]

theorem orderly_letters : (Document.value (.object letters)).WellFormed ∧
    (Document.value (.object letters)).Choiceless ∧ ∀ entry ∈ (Document.value (.object letters)).declarations,
      Acyclic (Document.value (.object letters)).declarations entry.1 := by
  refine ⟨?_, choiceless_of_root rfl ?_, fun entry among => ?_⟩
  · unfold WellFormed
    decide
  · unfold Json.Choiceless
    decide
  · have ranked : ∀ entry ∈ (Document.value (.object letters)).declarations,
        (Entries.get? [("Address", 0), ("Home", 1), ("Office", 1), ("Label", 1)] entry.1).isSome := by decide
    exact .of_ranks (ranked entry among) (by decide)

theorem alias_copies_letters : ∃ schema address home label,
    ((Document.value (.object letters)).resolveWithin 20 Selector.first ()).result = .ok schema ∧
      Entries.get? schema.definitions "Address" = some address ∧
      Entries.get? schema.definitions "Home" = some home ∧ home.erase = (address.rename (some "Home")).erase ∧
      Entries.get? schema.definitions "Office" = some (address.rename (some "Office")) ∧
      Entries.get? schema.definitions "Label" = some label ∧
      Settles Selector.always (Entries.knows schema.definitions) (.node .definition (.named (some "Label"))
        (.object [("$ref", .string "#/definitions/Address"), ("type", .string "string")])) [label] := by
  obtain ⟨schema, resolved⟩ : ∃ schema,
      ((Document.value (.object letters)).resolveWithin 20 Selector.first ()).result = .ok schema :=
    exists_of_toBool (by decide +kernel)
  obtain ⟨wellFormed, choiceless, acyclic⟩ := orderly_letters
  have untyped : Members.Untyped letters.declarations "Address" :=
    @Members.Untyped.of_names _ ["Address"] (by decide) (by decide) _ List.mem_cons_self
  have copies := fun passed rest name node => @alias_copies _ _ letters _ 20 _ _ wellFormed choiceless acyclic rfl
    resolved passed rest node name "Address"
  obtain ⟨address, home, found, first, same⟩ :=
    (copies (letters.declarations.take 0) _ "Home" _ rfl rfl).ahead (by decide +kernel) untyped
  obtain ⟨address', found', second⟩ :=
    (copies (letters.declarations.take 2) _ "Office" _ rfl rfl).reused (by decide +kernel) (by decide)
      (.inr (.inr untyped))
  cases found.symm.trans found'
  obtain ⟨label, third, settles⟩ :=
    (copies (letters.declarations.take 3) _ "Label" _ rfl rfl).own (by decide +kernel) (by
      intro other among
      obtain rfl : other = "Address" := by revert other among; decide
      exact untyped)
  exact ⟨schema, address, home, label, resolved, found, first, same, second, third, settles⟩

/-- The label is no renamed copy of the address. -/
theorem label_is_no_copy : (Document.value (.object letters)).WellFormed ∧
    (Document.value (.object letters)).Choiceless ∧ (∀ entry ∈ (Document.value (.object letters)).declarations,
      Acyclic (Document.value (.object letters)).declarations entry.1) ∧
    ∃ schema node address label, ("Label", Json.object node) ∈ letters.declarations ∧
      Node.target node = .ok "Address" ∧
      ((Document.value (.object letters)).resolveWithin 20 Selector.first ()).result = .ok schema ∧
      Entries.get? schema.definitions "Address" = some address ∧
      Entries.get? schema.definitions "Label" = some label ∧
      label.erase ≠ (address.rename (some "Label")).erase := by
  obtain ⟨wellFormed, choiceless, acyclic⟩ := orderly_letters
  have declared := @List.mem_of_getElem? _ letters.declarations 3 _ rfl
  refine ⟨wellFormed, choiceless, acyclic, _, _, _, _, declared, rfl, rfl, rfl, rfl, ?_⟩
  intro same
  cases same

end Document
end FieldTree
