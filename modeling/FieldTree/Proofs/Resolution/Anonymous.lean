import FieldTree.Proofs.Resolution.Reaches

/-! Where a field without a name becomes the field of an object. The element of an array has no name, and when its node
is a combination, a reference among the branches may add its target under the name of the combination, which is none. -/

namespace FieldTree

variable {σ : Type}

/-- The branch refers to a definition and is added to the combination as a field of its own: it tells a type, or the
definition has come to no object. -/
def Members.Adjoins (branch : Members) (cache : Entries Field) : Prop :=
  Node.isReference branch = true ∧ (Node.hasType branch = true ∨
    ∃ target field, Node.target branch = .ok target ∧ cache.get? target = some field ∧ field.contents? = none)

theorem Members.adjoins_iff {branch : Members} {cache : Entries Field} {target : String} {field : Field}
    (reference : Node.isReference branch = true) (refers : Node.target branch = .ok target)
    (known : cache.get? target = some field) :
    branch.Adjoins cache ↔ Node.hasType branch = true ∨ field.contents? = none := by
  refine (and_iff_right reference).trans (or_congr_right ⟨?_, fun other => ⟨target, field, refers, known, other⟩⟩)
  rintro ⟨_, _, refers', known', other⟩
  cases refers.symm.trans refers'
  cases known.symm.trans known'
  exact other

/-- The first branch is to be added as a field of its own, and there is no name for it. -/
def Strands (name : Option String) (branches : List Members) (cache : Entries Field) : Prop :=
  name = none ∧ ∃ branch rest, branches = branch :: rest ∧ branch.Adjoins cache

theorem strands_cons {name : Option String} {branch : Members} {rest : List Members} {cache : Entries Field} :
    Strands name (branch :: rest) cache ↔ name = none ∧ branch.Adjoins cache := by
  refine and_congr_right fun _ => ⟨?_, fun adjoins => ⟨_, _, rfl, adjoins⟩⟩
  rintro ⟨_, _, same, adjoins⟩
  cases same
  exact adjoins

/-- What a reference adds to a combination has names, unless it adds the target itself and there is no name for it. -/
theorem Field.named_added {field : Field} {name : Option String} {branch : Members} {fields : List Field}
    (told : name ≠ some "") (everywhere : field.Everywhere Addressable) (adds : field.added name branch = .ok fields) :
    (∀ one ∈ fields, one.Named) ↔ ¬(name = none ∧ (Node.hasType branch = true ∨ field.contents? = none)) := by
  rcases added_cases adds with ⟨rfl, itself⟩ | ⟨untyped, inside⟩
  · rw [List.forall_mem_singleton, Field.Named, name_rename]
    constructor
    · rintro ⟨_, same, _⟩ ⟨rfl, _⟩
      cases same
    · intro given
      cases name with
      | none => exact absurd ⟨rfl, itself⟩ given
      | some name => exact ⟨name, rfl, fun empty => told (congrArg some empty)⟩
  · refine iff_of_true ((everywhere_iff.mp everywhere).1 fields inside) ?_
    rintro ⟨_, typed | other⟩
    · cases untyped.symm.trans typed
    · cases inside.symm.trans other

/-- A task on the side of the properties, in a document without empty keys. -/
structure Task.Legible (task : Task) (before : State σ) : Prop where
  side : task.side = .property
  keyed : task.Keyed
  cached : before.cache.Every fun _ field => field.Everywhere Field.Addressable

/-- Nothing is cached on this side, so what a task begins finds the same definitions. -/
theorem Task.Legible.starts {context : Context σ} (definitions : context.definitions.Keyed) {task task' : Task}
    {before before' : State σ} (legible : task.Legible before) (starts : Starts context task before task' before') :
    task'.Legible before' where
  side := starts.side_eq.trans legible.side
  keyed := starts.keyed definitions legible.keyed
  cached := (starts.cache_of_property legible.side).symm ▸ legible.cached

/-- Only a branch that is stranded leaves a field without a name. -/
theorem Field.MergeLaw.addressable {context : Context σ} (definitions : context.definitions.Keyed) :
    MergeLaw context Task.Legible Addressable (fun fields => ∀ field ∈ fields, field.Named) Strands where
  side legible := legible.side
  starts legible := legible.starts definitions
  leaf := (Law.addressable context).leaf
  made legible shape each makes := Yields.made_addressable shape each makes legible.keyed.2
  takeOver legible known := (Law.addressable context).everywhere_takeOver (legible.cached _ _ known)
  added legible known := (Law.addressable context).everywhere_added (legible.cached _ _ known)
  merged := addressable_object
  nil := ⟨List.forall_mem_nil _, by rintro ⟨_, _, _, impossible, _⟩; cases impossible⟩
  inline {name branch rest before _ _ _ _} legible inline here _ := by
    have plain : ¬Strands name (branch :: rest) before.cache := by
      rw [strands_cons]
      rintro ⟨_, reference, _⟩
      cases inline.symm.trans reference
    have named := here.named_of_keyed (legible.starts definitions (.inline inline)).keyed fun one among => by
      obtain ⟨entry, _, rfl⟩ := List.mem_map.mp among
      rfl
    rw [List.forall_mem_append, and_iff_right named, and_iff_right plain]
  reference legible reference refers known adds _ := by
    have named := named_added legible.keyed.1 (legible.cached _ _ known) adds
    rw [List.forall_mem_append, strands_cons, Members.adjoins_iff reference refers known, named]

namespace Document

/-- The properties hold a combination without a name, as is one that stands for the element of an array, and a branch of
it refers to a definition that is to be a field of its own. -/
def Strands (root : Members) (selector : Selector σ) (start : σ) (definitions : Entries Field) : Prop :=
  ∃ branch rest before, Meets root selector start (.merge none (branch :: rest)) before ∧ branch.Adjoins definitions

variable {bound : Nat} {selector : Selector σ} {start : σ} {document : Document} {schema : Schema}

theorem strands_iff {root : Members} {properties : List Field} {middle after : State σ}
    (passes : Passes root selector start middle properties after) :
    Strands root selector start after.cache ↔
      ¬(Task.all .property (outer root)).Avoids (context root selector) FieldTree.Strands middle := by
  refine Iff.trans ⟨?_, ?_⟩ (meets_iff passes FieldTree.Strands)
  · rintro ⟨branch, rest, before, meets, adjoins⟩
    exact ⟨_, _, before, meets, strands_cons.mpr ⟨rfl, adjoins⟩⟩
  · rintro ⟨name, branches, before, meets, rfl, branch, rest, rfl, adjoins⟩
    exact ⟨branch, rest, before, meets, adjoins⟩

/-- In a document without empty keys that resolves, all objects in the properties have names for their fields unless the
pass over them strands a branch. With the names, no field is found unnamed when the leaves are listed; and where the
leaves are listed there are the names. -/
theorem addressable_unless_stranded (keyed : document.Keyed)
    (resolved : (document.resolveWithin bound selector start).result = .ok schema) :
    ∃ root, document.root = .ok root ∧
      ((∀ field ∈ schema.properties, field.Everywhere Field.Addressable) ↔
        ¬Strands root selector start schema.definitions) ∧
      ((∀ field ∈ schema.properties, field.Everywhere Field.Addressable) →
        ∀ path, Listing.ofSchema schema ≠ .error (.unnamed path)) ∧
      ∀ leaves, Listing.ofSchema schema = .ok leaves →
        ∀ field ∈ schema.properties, field.Everywhere Field.Addressable := by
  obtain ⟨root, middle, properties, after, rooted, passes, rfl⟩ := passes_of_resolved resolved
  have here := keyed_outer (keyed root rooted)
  refine ⟨root, rooted, ?_, fun everywhere path => ?_, fun leaves listed => ?_⟩
  · rw [← not_iff_not, not_not]
    have addresses := passes.properties.abides_iff (.addressable (Members.keyed_declarations (keyed root rooted)))
      ⟨rfl, here, addressable_of_definesAll (keyed root rooted) passes.definitions⟩
    exact (not_congr addresses).trans (strands_iff passes).symm
  · refine Listing.addFields_ne_unnamed path properties (passes.properties.named_of_keyed here ?_) everywhere
    intro one among
    obtain ⟨entry, _, rfl⟩ := List.mem_map.mp among
    rfl
  · exact (Listing.everywhere_of_addFields properties listed).2

/-- The element of the array is one of a single alternative, which refers to a text. -/
def ids : Members :=
  [("definitions", .object [("Id", .object [("type", .string "string")])]),
   ("properties", .object [("ids", .object
     [("type", .string "array"),
      ("items", .object [("anyOf", .array [.object [("$ref", .string "#/definitions/Id")]])])])])]

/-- The element comes to an object with a field that has no name. -/
theorem unnamed_ids : (Document.value (.object ids)).Keyed ∧ ∃ schema,
    ((Document.value (.object ids)).resolveWithin 20 Selector.first ()).result = .ok schema ∧
      ¬(∀ field ∈ schema.properties, field.Everywhere Field.Addressable) ∧
      Listing.ofSchema schema = .error (.unnamed "ids[]") := by
  refine ⟨?_, _, rfl, fun everywhere => ?_, rfl⟩
  · intro root rooted
    cases rooted
    decide
  · have element := (Field.everywhere_iff.mp (everywhere _ List.mem_cons_self)).2 _ List.mem_cons_self
    obtain ⟨name, told, _⟩ := (Field.everywhere_iff.mp element).1 _ rfl _ List.mem_cons_self
    cases told

theorem stranded_ids : ∃ schema,
    ((Document.value (.object ids)).resolveWithin 20 Selector.first ()).result = .ok schema ∧
      Strands ids Selector.first () schema.definitions ∧
      ¬(∀ field ∈ schema.properties, field.Everywhere Field.Addressable) ∧
      ∀ leaves, Listing.ofSchema schema ≠ .ok leaves := by
  have keyed : (Document.value (.object ids)).Keyed := by
    intro root rooted
    cases rooted
    decide
  have resolved : ((Document.value (.object ids)).resolveWithin 20 Selector.first ()).result = .ok _ := rfl
  obtain ⟨root, rooted, addressable, _, listed⟩ := addressable_unless_stranded keyed resolved
  cases rooted
  have sound : Walker.Sound (context ids Selector.first) (walker (context ids Selector.first) 10) :=
    Walker.sound_walker _ 10
  have strands : Strands ids Selector.first () [("Id", .scalar (some "Id") none (.string none .zero .zero none))] := by
    refine ⟨_, _, _, ⟨_, definesAll_of_ends sound rfl, .step .here trivial (.step (.inside rfl) trivial
      (.step .here trivial (.step (.merge rfl rfl rfl rfl) ?_ .refl)))⟩, rfl, .inr ⟨"Id", _, rfl, rfl, rfl⟩⟩
    intro name members combinator branches shape listed
    cases shape
    cases listed
    rfl
  have unaddressed := fun everywhere => addressable.mp everywhere strands
  exact ⟨_, resolved, strands, unaddressed, fun leaves ok => unaddressed (listed leaves ok)⟩

end Document
end FieldTree
