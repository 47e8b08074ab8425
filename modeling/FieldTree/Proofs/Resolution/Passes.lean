import FieldTree.Proofs.Resolution.PairedDocument
import FieldTree.Proofs.Resolution.Walks

/-! A document is resolved in two passes, first over the definitions and then over the properties of the root. Both
are told without a bound here, as the walk is. -/

namespace FieldTree

variable {σ : Type}

/-- A node that refers to nothing. -/
def Json.isPlain : Json → Bool
  | .object members => !Node.isReference members
  | _ => true

/-- What becomes of one definition. A plain one is resolved itself, an alias by way of its target. -/
inductive Defines (context : Context σ) (name : String) (node : Json) (before : State σ) : State σ → Prop
  | vanished {after} (plain : node.isPlain = true)
    (walked : Yields context (.node .definition (.named name) node) (before.logged (.resolving name)) [] after) :
    Defines context name node before (after.logged (.vanished name))
  | kept {field known after} (plain : node.isPlain = true)
    (walked : Yields context (.node .definition (.named name) node) (before.logged (.resolving name)) [field] after)
    (found : after.cache.get? name = some known) : Defines context name node before (after.logged (.kept name))
  | stored {field after} (plain : node.isPlain = true)
    (walked : Yields context (.node .definition (.named name) node) (before.logged (.resolving name)) [field] after)
    (new : after.cache.get? name = none) : Defines context name node before (after.stored name field)
  | aliased {members target known fields after} (same : node = .object members)
    (reference : Node.isReference members = true)
    (refers : Node.target members = .ok target) (found : before.cache.get? target = some known)
    (walked : Yields context (.node .definition (.named name) node) (before.logged (.resolving name)) fields after) :
    Defines context name node before (after.keep name fields)
  | ahead {members target body fields after} (same : node = .object members)
    (reference : Node.isReference members = true)
    (refers : Node.target members = .ok target) (unknown : before.cache.get? target = none)
    (free : target ∉ before.guard) (given : context.definitions.given? target = some (.object body))
    (plain : Node.isReference body = false)
    (walked : Yields context (.node .definition (.named name) (.object body))
      ((before.logged (.resolving name)).under (target :: before.guard)) fields after) :
    Defines context name node before ((after.under (after.guard.erase target)).keep name fields)

/-- The pass over the definitions. -/
inductive DefinesAll (context : Context σ) : Members → State σ → State σ → Prop
  | nil {before} : DefinesAll context [] before before
  | cons {name node rest before middle after} (here : Defines context name node before middle)
    (later : DefinesAll context rest middle after) : DefinesAll context ((name, node) :: rest) before after

/-- The state before a resolution. -/
def State.fresh (selector : σ) : State σ := ⟨[], [], selector, []⟩

/-- The properties of the root. -/
def Document.outer (root : Members) : List Inner :=
  (Json.members (root.given? "properties")).map fun (key, node) =>
    ⟨⟨some key, some ((Document.requiredPaths root).contains key), some (Node.type? root = some .object)⟩, node, none⟩

/-- The schema that the two passes make of a root. -/
def Document.assembled (root : Members) (properties : List Field) (definitions : Entries Field) : Schema :=
  let textAt (key : String) := Json.textOf (root.given? key)
  { id := textAt "$id", name := textAt "$schema", type := textAt "type"
    requiredNames := Document.requiredPaths root, properties, definitions }

/-- Both passes, over a document with this root. -/
structure Document.Passes (root : Members) (selector : Selector σ) (start : σ) (middle : State σ)
    (properties : List Field)
    (after : State σ) : Prop where
  definitions : DefinesAll (context root selector) root.declarations (State.fresh start) middle
  properties : Yields (context root selector) (.all .property (outer root)) middle properties after

namespace Document
open Resolve Walker

variable {context : Context σ} {walker : Walker σ} {before after : State σ}

theorem properties_eq (walker : Walker σ) (requiredNames : List String) (inObject : Bool) (members : Members) :
    properties walker requiredNames inObject members = all walker .property (members.map fun (key, node) =>
      ⟨⟨some key, some (requiredNames.contains key), some inObject⟩, node, none⟩) := by
  induction members with
  | nil => rfl
  | cons entry rest ih => simp only [properties, ih, List.map_cons, all, child, bind_assoc, pure_bind]

theorem ends_storeUnlessNothing {name : String} {child : Option Field} {given : Unit} :
    (storeUnlessNothing name child).Ends before given after ↔ after = before.keep name child.toList := by
  cases child with
  | some field => exact ends_store
  | none =>
    constructor
    · intro ends
      exact (ends_pure.mp ends).2.symm
    · intro same
      exact ends_pure.mpr ⟨rfl, same.symm⟩

theorem defines_of_plain (sound : Sound context walker) {name : String} {node : Json} (plain : node.isPlain = true)
    (ends : (plainDefinition walker name node).Ends (before.logged (.resolving name)) () after) :
    Defines context name node before after := by
  obtain ⟨child, middle, walked, ends⟩ := ends_bind.mp ends
  have yields := sound.definition walked
  cases child with
  | none =>
    rw [ends_log.mp ends]
    exact .vanished plain yields
  | some field =>
    obtain ⟨known, _, looked, ends⟩ := ends_bind.mp ends
    obtain ⟨rfl, rfl⟩ := ends_cached?.mp looked
    cases found : middle.cache.get? name with
    | some known =>
      simp only [found, Option.isSome_some, ite_true] at ends
      rw [ends_log.mp ends]
      exact .kept plain yields found
    | none =>
      simp only [found, Option.isSome_none, Bool.false_eq_true, ite_false] at ends
      rw [ends_store.mp ends]
      exact .stored plain yields found

theorem defines_of_alias (sound : Sound context walker) {name : String} {members : Members}
    (reference : Node.isReference members = true)
    (ends : (aliasDefinition context walker name members).Ends (before.logged (.resolving name)) () after) :
    Defines context name (.object members) before after := by
  obtain ⟨target, _, told, ends⟩ := ends_bind.mp ends
  obtain ⟨refers, rfl⟩ := ends_orFail.mp told
  obtain ⟨known, _, looked, ends⟩ := ends_bind.mp ends
  obtain ⟨rfl, rfl⟩ := ends_cached?.mp looked
  cases found : (before.logged (.resolving name)).cache.get? target with
  | some known =>
    simp only [found, Option.isSome_some, ite_true] at ends
    obtain ⟨child, middle, walked, ends⟩ := ends_bind.mp ends
    rw [ends_storeUnlessNothing.mp ends]
    exact .aliased rfl reference refers found (sound.definition walked)
  | none =>
    simp only [found, Option.isSome_none, Bool.false_eq_true, ite_false] at ends
    split at ends
    next body given =>
      split at ends
      · exact (ends_fail.mp ends).elim
      next plain =>
        obtain ⟨child, middle, entered, ends⟩ := ends_bind.mp ends
        rw [ends_storeUnlessNothing.mp ends]
        by_cases held : target ∈ (before.logged (.resolving name)).guard
        · rw [ends_guarded_of_mem held] at entered
          exact (ends_fail.mp entered).elim
        · obtain ⟨last, walked, rfl⟩ := (ends_guarded_of_not_mem held).mp entered
          exact .ahead rfl reference refers found held given (Bool.eq_false_iff.mpr plain) (sound.definition walked)
    next => exact (ends_fail.mp ends).elim

theorem definesAll_of_ends (sound : Sound context walker) {members : Members}
    (ends : (definitions context walker members).Ends before () after) : DefinesAll context members before after := by
  induction members generalizing before with
  | nil =>
    obtain ⟨_, rfl⟩ := ends_pure.mp ends
    exact .nil
  | cons entry rest ih =>
    obtain ⟨name, node⟩ := entry
    obtain ⟨_, middle, here, later⟩ := ends_bind.mp ends
    refine .cons ?_ (ih later)
    obtain ⟨_, _, logged, here⟩ := ends_bind.mp here
    rw [ends_log.mp logged] at here
    cases node with
    | object members =>
      dsimp only at here
      split at here
      next reference => exact defines_of_alias sound reference here
      next plain => exact defines_of_plain sound (by simpa [Json.isPlain] using plain) here
    | _ => exact defines_of_plain sound rfl here

theorem definitions_append (passed rest : Members) :
    definitions context walker (passed ++ rest) =
      definitions context walker passed >>= fun _ => definitions context walker rest := by
  induction passed with
  | nil => exact (pure_bind _ _).symm
  | cons entry others ih => simp only [List.cons_append, definitions, ih, bind_assoc]

/-- A document that resolves has been passed over twice. -/
theorem passes_of_resolved {bound : Nat} {selector : Selector σ} {start : σ} {document : Document} {schema : Schema}
    (resolved : (document.resolveWithin bound selector start).result = .ok schema) :
    ∃ root middle properties after, document.root = .ok root ∧ Passes root selector start middle properties after ∧
      schema = assembled root properties after.cache := by
  cases rooted : document.root with
  | error cause => simp [resolveWithin, rooted] at resolved
  | ok root =>
    rw [resolveWithin_of_root rooted] at resolved
    have ends :
      (Document.schema (Document.context root selector) (FieldTree.walker (Document.context root selector) bound)
        root).Ends (State.fresh start) schema (run bound selector start root).2 := Prod.ext resolved rfl
    obtain ⟨_, middle, first, ends⟩ := ends_bind.mp ends
    obtain ⟨fields, last, second, ends⟩ := ends_bind.mp ends
    have sound : Sound (Document.context root selector) (FieldTree.walker (Document.context root selector) bound) :=
      sound_walker _ bound
    rw [properties_eq] at second
    refine ⟨root, middle, fields, last, rfl, ⟨definesAll_of_ends sound first, sound.all second⟩, ?_⟩
    obtain ⟨state, _, got, ends⟩ := ends_bind.mp ends
    cases got
    obtain ⟨rfl, _⟩ := ends_pure.mp ends
    rfl

/-! With enough room both passes go through. -/

theorem ends_plain {name : String} {node : Json} (plain : node.isPlain = true)
    (ends : (plainDefinition walker name node).Ends (before.logged (.resolving name)) () after) :
    (definition context walker name node).Ends before () after := by
  refine ends_bind.mpr ⟨(), _, ends_log.mpr rfl, ?_⟩
  cases node with
  | object members =>
    have plain : Node.isReference members = false := by simpa [Json.isPlain] using plain
    simp only [plain, Bool.false_eq_true, ite_false]
    exact ends
  | _ => exact ends

end Document

open Document Resolve Walker

theorem Defines.walks {context : Context σ} {name : String} {node : Json} {before after : State σ}
    (defines : Defines context name node before after) :
    ∃ enough, ∀ bound, enough ≤ bound →
      (Document.definition context (FieldTree.walker context bound) name node).Ends before () after := by
  cases defines with
  | vanished plain walked =>
    obtain ⟨child, nothing, enough, walks⟩ := @Walks.child _ _ _ _ .definition _ _ _ walked.walks
    obtain rfl := Option.toList_eq_nil_iff.mp nothing.symm
    refine ⟨enough, fun bound room => ends_plain plain ?_⟩
    exact ends_bind.mpr ⟨none, _, walks bound room, ends_log.mpr rfl⟩
  | @kept field known after plain walked found =>
    obtain ⟨child, something, enough, walks⟩ := @Walks.child _ _ _ _ .definition _ _ _ walked.walks
    obtain rfl := Option.toList_eq_singleton_iff.mp something.symm
    refine ⟨enough, fun bound room => ends_plain plain ?_⟩
    refine ends_bind.mpr ⟨some field, _, walks bound room, ?_⟩
    refine ends_bind.mpr ⟨some known, after, ends_cached?.mpr ⟨found.symm, rfl⟩, ?_⟩
    simp only [Option.isSome_some, ite_true]
    exact ends_log.mpr rfl
  | @stored field after plain walked new =>
    obtain ⟨child, something, enough, walks⟩ := @Walks.child _ _ _ _ .definition _ _ _ walked.walks
    obtain rfl := Option.toList_eq_singleton_iff.mp something.symm
    refine ⟨enough, fun bound room => ends_plain plain ?_⟩
    refine ends_bind.mpr ⟨some field, _, walks bound room, ?_⟩
    refine ends_bind.mpr ⟨none, after, ends_cached?.mpr ⟨new.symm, rfl⟩, ?_⟩
    simp only [Option.isSome_none, Bool.false_eq_true, ite_false]
    exact ends_store.mpr rfl
  | @aliased members target known fields after same reference refers found walked =>
    subst same
    obtain ⟨child, rfl, enough, walks⟩ := @Walks.child _ _ _ _ .definition _ _ _ walked.walks
    refine ⟨enough, fun bound room => ends_bind.mpr ⟨(), _, ends_log.mpr rfl, ?_⟩⟩
    simp only [reference, ite_true]
    refine ends_bind.mpr ⟨target, _, ends_orFail.mpr ⟨refers, rfl⟩, ?_⟩
    refine ends_bind.mpr ⟨some known, _, ends_cached?.mpr ⟨found.symm, rfl⟩, ?_⟩
    simp only [Option.isSome_some, ite_true]
    exact ends_bind.mpr ⟨child, _, walks bound room, ends_storeUnlessNothing.mpr rfl⟩
  | @ahead members target body fields after same reference refers unknown free given plain walked =>
    subst same
    obtain ⟨child, rfl, enough, walks⟩ := @Walks.child _ _ _ _ .definition _ _ _ walked.walks
    refine ⟨enough, fun bound room => ends_bind.mpr ⟨(), _, ends_log.mpr rfl, ?_⟩⟩
    simp only [reference, ite_true]
    refine ends_bind.mpr ⟨target, _, ends_orFail.mpr ⟨refers, rfl⟩, ?_⟩
    refine ends_bind.mpr ⟨none, _, ends_cached?.mpr ⟨unknown.symm, rfl⟩, ?_⟩
    simp only [Option.isSome_none, Bool.false_eq_true, ite_false, given, plain]
    have free : target ∉ (before.logged (.resolving name)).guard := free
    refine ends_bind.mpr ⟨child, _, (ends_guarded_of_not_mem free).mpr ⟨after, ?_, rfl⟩,
      ends_storeUnlessNothing.mpr rfl⟩
    exact walks bound room

theorem DefinesAll.walks {context : Context σ} {members : Members} {before after : State σ}
    (defines : DefinesAll context members before after) :
    ∃ enough, ∀ bound, enough ≤ bound →
      (definitions context (FieldTree.walker context bound) members).Ends before () after := by
  induction defines with
  | nil => exact ⟨0, fun bound _ => ends_pure.mpr ⟨rfl, rfl⟩⟩
  | @cons name node rest before middle after here later ih =>
    obtain ⟨enough, walks⟩ := here.walks
    obtain ⟨enough', walks'⟩ := ih
    refine ⟨max enough enough', fun bound room => ?_⟩
    exact ends_bind.mpr ⟨(), middle, walks bound (by omega), walks' bound (by omega)⟩

section
variable {context : Context σ} {members others : Members} {before middle after after' : State σ}

/-- The pass over the definitions ends in one way. -/
theorem DefinesAll.unique (first : DefinesAll context members before after)
    (second : DefinesAll context members before after') : after' = after := by
  obtain ⟨enough, walks⟩ := first.walks
  obtain ⟨enough', walks'⟩ := second.walks
  have ends := walks (max enough enough') (Nat.le_max_left _ _)
  have ends' := walks' (max enough enough') (Nat.le_max_right _ _)
  exact congrArg Prod.snd (ends'.symm.trans ends)

theorem DefinesAll.append (first : DefinesAll context members before middle)
    (second : DefinesAll context others middle after) : DefinesAll context (members ++ others) before after := by
  induction first with
  | nil => exact second
  | cons here _ ih => exact .cons here (ih second)

theorem DefinesAll.of_append (defines : DefinesAll context (members ++ others) before after) :
    ∃ middle, DefinesAll context members before middle ∧ DefinesAll context others middle after := by
  induction members generalizing before with
  | nil => exact ⟨before, .nil, defines⟩
  | cons entry rest ih =>
    cases defines with
    | cons here later =>
      obtain ⟨middle, first, second⟩ := ih later
      exact ⟨middle, .cons here first, second⟩

end

/-- A document that can be passed over twice resolves, given enough room. -/
theorem Document.Passes.resolved {root : Members} {selector : Selector σ} {start : σ} {middle after : State σ}
    {properties : List Field} {document : Document} (passes : Passes root selector start middle properties after)
    (rooted : document.root = .ok root) :
    ∃ enough, ∀ bound, enough ≤ bound →
      (document.resolveWithin bound selector start).result = .ok (assembled root properties after.cache) := by
  obtain ⟨enough, walks⟩ := passes.definitions.walks
  obtain ⟨enough', walks'⟩ := passes.properties.walks
  refine ⟨max enough enough', fun bound room => ?_⟩
  have ends : (schema (context root selector) (FieldTree.walker (context root selector) bound) root).Ends
      (State.fresh start) (assembled root properties after.cache) after := by
    refine ends_bind.mpr ⟨(), middle, walks bound (by omega), ?_⟩
    refine ends_bind.mpr ⟨properties, after, ?_, ?_⟩
    · rw [properties_eq]
      exact walks' bound (by omega)
    · exact ends_bind.mpr ⟨after, after, rfl, ends_pure.mpr ⟨rfl, rfl⟩⟩
  rw [resolveWithin_of_root rooted]
  exact congrArg Prod.fst ends

end FieldTree
