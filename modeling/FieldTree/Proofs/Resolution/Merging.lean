import FieldTree.Proofs.Resolution.PropertySide

/-! Branches that hold together are merged into one object, and merging is concatenation: the branches of two lists add
what those of the first add, followed by what those of the second add. An alternative is merged alone. -/

namespace FieldTree

variable {σ : Type}

/-- A node that tells nothing but how these branches are combined. -/
def Combinator.over (combinator : Combinator) (branches : List Members) : Members :=
  [(combinator.keyword, .array (branches.map .object))]

/-- The resolution of a property that tells nothing else. -/
def Context.combines (context : Context σ) (bound : Nat) (site : Site) (combinator : Combinator)
    (branches : List Members) : Resolve σ Field :=
  (walker context (bound + 1)).property site (.object (combinator.over branches))

/-- The properties that the branch describes itself have no alternatives. A branch with a reference describes none. -/
def Members.DescribesNoChoice (branch : Members) : Prop :=
  Node.isReference branch = false → ∀ entry ∈ Json.members (branch.given? "properties"), entry.2.Choiceless

theorem Node.allMembers?_objects (branches : List Members) : allMembers? (branches.map .object) = some branches := by
  induction branches with
  | nil => rfl
  | cons branch rest ih => simp only [List.map_cons, allMembers?, ih, Option.map_some]

/-- Merging branches that describe no choice leaves the state as it is. -/
theorem Yields.still_merge {context : Context σ} {name : Option String} {branches : List Members} {fields : List Field}
    {before after : State σ} (yields : Yields context (.merge name branches) before fields after)
    (choiceless : ∀ branch ∈ branches, branch.DescribesNoChoice) : after = before := by
  induction branches generalizing before fields with
  | nil =>
    cases yields
    rfl
  | cons branch rest ih =>
    obtain ⟨first, others⟩ := List.forall_mem_cons.mp choiceless
    cases yields with
    | mergeInline inline here later =>
      refine (ih later others).trans (here.still rfl fun one among => ?_)
      obtain ⟨entry, member, rfl⟩ := List.mem_map.mp among
      exact first inline entry member
    | mergeReference _ _ _ _ later => exact ih later others

namespace Walker
open Resolve Node

variable {context : Context σ} {bound : Nat} {site : Site} {name : Option String} {first second branches : List Members}

theorem contributions_append (walker : Walker σ) (name : Option String) (first second : List Members) :
    contributions walker name (first ++ second) = (do
      let fields ← contributions walker name first
      let others ← contributions walker name second
      return fields ++ others) := by
  induction first with
  | nil => simp only [List.nil_append, contributions, pure_bind, bind_pure]
  | cons branch rest ih => simp only [List.cons_append, contributions, ih, bind_assoc, pure_bind, List.append_assoc]

theorem combined_eq (walker : Walker σ) (name : Option String) (branches : List Members) :
    combined walker name branches = (do
      return .object name (some false) (← contributions walker name branches) []) := rfl

/-- The branches of the second list find the state as it was, unless one of the first list fails. -/
theorem outcome_contributions_append (choiceless : ∀ branch ∈ first, branch.DescribesNoChoice) (state : State σ) :
    ((contributions (walker context bound) name (first ++ second)).outcome state).1 = (do
      let fields ← ((contributions (walker context bound) name first).outcome state).1
      let others ← ((contributions (walker context bound) name second).outcome state).1
      return fields ++ others) := by
  rw [contributions_append, outcome_bind]
  cases ended : (contributions (walker context bound) name first).outcome state with
  | mk result after =>
    cases result with
    | error failure => rfl
    | ok fields =>
      obtain rfl := (Sound.merge (sound_walker context bound) ended).still_merge choiceless
      dsimp only
      rw [outcome_bind]
      cases (contributions (walker context bound) name second).outcome after with
      | mk result last => cases result <;> rfl

theorem combines_eq {combinator : Combinator} (structural : ∀ branch ∈ branches, isStructural branch = true) :
    context.combines bound site combinator branches =
      take context site.name combinator branches >>= combined (walker context bound) site.name := by
  have all : branches.all isStructural = true := List.all_eq_true.mpr structural
  have found : combinator? (combinator.over branches) = some combinator := by cases combinator <;> rfl
  have plain : isReference (combinator.over branches) = false := by cases combinator <;> rfl
  have untyped : hasType (combinator.over branches) = false := by cases combinator <;> rfl
  have listed : Node.branches (combinator.over branches) combinator site.name = .ok branches := by
    have given : (combinator.over branches).given? combinator.keyword = some (.array (branches.map .object)) := by
      cases combinator <;> rfl
    simp only [Node.branches, given, allMembers?_objects]
  simp only [Context.combines, walker, propertyStep, plain, untyped, found, Bool.false_eq_true, ite_false,
    propertyBranch_eq, listed, all, ite_true, orFail, pure_bind]

/-- The object with the fields that the branches add, or the failure of the first branch that fails. -/
theorem result_combines (structural : ∀ branch ∈ branches, isStructural branch = true) (state : State σ) :
    ((context.combines bound site .allOf branches).outcome state).1 =
      ((contributions (walker context bound) site.name branches).outcome state).1.map
        fun fields => .object site.name (some false) fields [] := by
  simp only [combines_eq structural, take, ite_true, pure_bind, combined_eq, outcome_bind, outcome_pure]
  cases (contributions (walker context bound) site.name branches).outcome state with
  | mk result after => cases result <;> rfl

theorem object_of_combines (structural : ∀ branch ∈ branches, isStructural branch = true) {state : State σ} {field : Field}
    (made : ((context.combines bound site .allOf branches).outcome state).1 = .ok field) :
    ∃ fields, field = .object site.name (some false) fields [] := by
  rw [result_combines structural] at made
  cases added : ((contributions (walker context bound) site.name branches).outcome state).1 with
  | ok fields =>
    rw [added] at made
    cases made
    exact ⟨fields, rfl⟩
  | error failure =>
    rw [added] at made
    cases made

/-- An alternative that is chosen is merged alone. -/
theorem combines_alternative {combinator : Combinator} (alternative : combinator ≠ .allOf)
    (structural : ∀ branch ∈ branches, isStructural branch = true) {state : State σ} {index : Fin branches.length}
    {next : σ} (picked : context.selector.pick branches.length state.selector = (.ok (index : Int), next)) :
    (context.combines bound site combinator branches).outcome state =
      (context.combines bound site .allOf [branches.get index]).outcome
        (State.logged { state with selector := next } (.selected combinator index branches.length site.name)) := by
  have alone : ∀ branch ∈ [branches.get index], isStructural branch = true := by
    intro branch member
    rw [List.mem_singleton.mp member]
    exact structural _ (List.get_mem branches index)
  have selected : (select context site.name combinator branches).Ends state (branches.get index)
      (State.logged { state with selector := next } (.selected combinator index branches.length site.name)) :=
    ends_select.mpr ⟨index, next, rfl, picked, rfl⟩
  have taken := (ends_take_alternative alternative).mpr selected
  rw [combines_eq structural, combines_eq alone, outcome_bind, taken]
  simp only [take, ite_true, pure_bind]

/-- Combined branches come to an object that is not required and requires nothing. Those of two lists together come to
one exactly if those of each do; it has the fields of the first and then those of the second, and it fails as the first
fails, or else as the second does. Of alternatives, the chosen one comes to what it would alone. -/
theorem combines_append (context : Context σ) (bound : Nat) (site : Site) (state : State σ) {first second : List Members}
    (structural : ∀ branch ∈ first ++ second, isStructural branch = true)
    (choiceless : ∀ branch ∈ first ++ second, branch.DescribesNoChoice) :
    (∀ branches, (∀ branch ∈ branches, isStructural branch = true) → ∀ field,
      ((context.combines bound site .allOf branches).outcome state).1 = .ok field →
        ∃ fields, field = .object site.name (some false) fields []) ∧
    (∀ field, ((context.combines bound site .allOf (first ++ second)).outcome state).1 = .ok field ↔
      ∃ fields others,
        ((context.combines bound site .allOf first).outcome state).1 = .ok (.object site.name (some false) fields []) ∧
        ((context.combines bound site .allOf second).outcome state).1 = .ok (.object site.name (some false) others []) ∧
        field = .object site.name (some false) (fields ++ others) []) ∧
    (∀ failure, ((context.combines bound site .allOf (first ++ second)).outcome state).1 = .error failure ↔
      ((context.combines bound site .allOf first).outcome state).1 = .error failure ∨
        (∃ field, ((context.combines bound site .allOf first).outcome state).1 = .ok field) ∧
          ((context.combines bound site .allOf second).outcome state).1 = .error failure) ∧
    ∀ combinator branches, combinator ≠ .allOf → (∀ branch ∈ branches, isStructural branch = true) →
      ∀ (index : Fin branches.length) (next : σ),
        context.selector.pick branches.length state.selector = (.ok (index : Int), next) →
        (context.combines bound site combinator branches).outcome state =
          (context.combines bound site .allOf [branches.get index]).outcome
            (State.logged { state with selector := next } (.selected combinator index branches.length site.name)) := by
  obtain ⟨here, there⟩ := List.forall_mem_append.mp structural
  obtain ⟨choiceless, _⟩ := List.forall_mem_append.mp choiceless
  have results := @outcome_contributions_append σ context bound site.name first second choiceless state
  rw [result_combines structural, result_combines here, result_combines there, results]
  refine ⟨fun branches each field made => object_of_combines each made, ?_, ?_,
    fun combinator branches alternative each index next picked => combines_alternative alternative each picked⟩
  all_goals
    cases ((contributions (walker context bound) site.name first).outcome state).1 with
    | error failure => simp [Except.map, bind, Except.bind]
    | ok fields =>
      cases ((contributions (walker context bound) site.name second).outcome state).1 with
      | error failure => simp [Except.map, bind, Except.bind]
      | ok others => simp [Except.map, bind, Except.bind, pure, Except.pure, eq_comm]

/-- What is known of a person, of a number and of a list when the branches are merged. -/
def acquainted : State Unit := ⟨[
  ("Person", .object (some "Person") none [.scalar (some "name") none .integer, .scalar (some "age") none .integer] []),
  ("Id", .scalar (some "Id") none .integer),
  ("Tags", .array (some "Tags") (some false) (.scalar none none .integer) (.int 0) false)], [], (), []⟩

def referring (target : String) (more : Members) : Members := ("$ref", .string ("#/definitions/" ++ target)) :: more

/-- A person and a due date, all of whose fields are added. -/
def loaned : List Members :=
  [referring "Person" [], [("properties", .object [("due", .object [("type", .string "integer")])])]]

/-- A number, a list, and a person that is added whole. -/
def labelled : List Members := [referring "Id" [], referring "Tags" [], referring "Person" [("type", .string "object")]]

theorem combines_append_loaned : (∀ branch ∈ loaned ++ labelled, isStructural branch = true) ∧
    (∀ branch ∈ loaned ++ labelled, branch.DescribesNoChoice) ∧
    (((Context.mk [] Selector.last).combines 5 (.named (some "loan")) .allOf (loaned ++ labelled)).outcome acquainted).1 =
      .ok (.object (some "loan") (some false) ([.scalar (some "name") none .integer, .scalar (some "age") none .integer,
        .scalar (some "due") none .integer] ++ [.scalar (some "loan") none .integer,
        .array (some "loan") (some false) (.scalar none none .integer) (.int 0) false,
        .object (some "loan") none [.scalar (some "name") none .integer, .scalar (some "age") none .integer] []]) []) ∧
    (((Context.mk [] Selector.last).combines 5 (.named (some "loan")) .oneOf labelled).outcome acquainted).1 =
      .ok (.object (some "loan") (some false)
        [.object (some "loan") none [.scalar (some "name") none .integer, .scalar (some "age") none .integer] []] []) := by
  have structural : ∀ branch ∈ loaned ++ labelled, isStructural branch = true := by decide
  have choiceless : ∀ branch ∈ loaned ++ labelled, branch.DescribesNoChoice := by
    unfold Members.DescribesNoChoice Json.Choiceless
    decide
  obtain ⟨_, together, _, alternatives⟩ :=
    combines_append (Context.mk [] Selector.last) 5 (.named (some "loan")) acquainted structural choiceless
  refine ⟨structural, choiceless, (together _).mpr ⟨_, _, rfl, rfl, rfl⟩, ?_⟩
  rw [alternatives .oneOf labelled (by decide) (by decide) ⟨2, by decide⟩ () rfl]
  rfl

end Walker
end FieldTree
