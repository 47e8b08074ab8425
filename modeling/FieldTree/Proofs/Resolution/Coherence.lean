import FieldTree.Proofs.Resolution.Conduct
import FieldTree.Proofs.Resolution.Presence
import FieldTree.Proofs.Resolution.Visits

/-! The fields of a schema are coherent: they promise no more than they hold, and the fields directly inside a
collection bear the name that is fixed for them. -/

namespace FieldTree

variable {σ : Type}

/-- An enumeration defaults to its first value, points in time have one of three formats, and a text with another format
has no other constraint. -/
def Scalar.Coherent : Scalar → Prop
  | .string pattern minLength maxLength (some format) =>
    pattern = none ∧ minLength = .zero ∧ maxLength = .zero ∧ format ∉ ["date-time", "time", "date", "uuid"]
  | .date format => format ∈ ["date-time", "time", "date"]
  | .enum default values => values.head? = some default
  | _ => True

/-- A scalar does not say whether it is required, and a collection does. What an object requires it has, each once. -/
def Field.Coherent : Field → Prop
  | .scalar _ required type => required = none ∧ type.Coherent
  | .array _ required element _ _ => required.isSome ∧ element.name = none
  | .object _ _ fields requiredNames =>
    requiredNames.Nodup ∧ "" ∉ requiredNames ∧ ∀ name ∈ requiredNames, some name ∈ fields.map Field.name
  | .map _ required value => required.isSome ∧ value.name = some mapValueName

theorem nodup_eraseDups : (names : List String) → names.eraseDups.Nodup
  | [] => List.nodup_nil
  | name :: rest => by
    rw [List.eraseDups_cons, List.nodup_cons, List.mem_eraseDups]
    exact ⟨by simp, nodup_eraseDups _⟩
termination_by names => names.length
decreasing_by exact Nat.lt_succ_of_le (List.length_filter_le _ _)

namespace Node

theorem nodup_requiredNames (node : Members) : (requiredNames node).Nodup := nodup_eraseDups _

theorem not_mem_requiredNames (node : Members) : "" ∉ requiredNames node := by
  simp [requiredNames]

theorem numberField_coherent {name : Option String} {node : Members} {made : Field}
    (ok : numberField name node = .ok made) : made.Coherent := by
  iterate 5 obtain ⟨_, _, ok⟩ := bind_ok ok
  cases ok
  exact ⟨rfl, trivial⟩

theorem formatField_coherent (name : Option String) (format : String) : (formatField name format).Coherent := by
  unfold formatField
  split
  next date => exact ⟨rfl, List.contains_iff_mem.mp date⟩
  next other =>
    split
    · exact ⟨rfl, trivial⟩
    next another =>
      refine ⟨rfl, rfl, rfl, rfl, ?_⟩
      simp only [dateFormats, List.contains_iff_mem, List.mem_cons, List.not_mem_nil, or_false, not_or] at other ⊢
      exact ⟨other.1, other.2.1, other.2.2, another⟩

theorem textField_coherent {name : Option String} {node : Members} {made : Field} (ok : textField name node = .ok made) :
    made.Coherent := by
  unfold textField at ok
  split at ok
  · simp only [enumField] at ok
    split at ok
    · cases ok
    · cases ok
      exact ⟨rfl, rfl⟩
  · split at ok
    next format _ =>
      cases ok
      exact formatField_coherent name format.text
    next =>
      iterate 2 obtain ⟨_, _, ok⟩ := bind_ok ok
      cases ok
      exact ⟨rfl, trivial⟩

end Node

namespace Shape

theorem ofResult_leaf {result : Except SemanticError Field} {field : Field} (told : ofResult result = .leaf field) :
    result = .ok field := by
  cases result with
  | ok made =>
    cases told
    rfl
  | error => cases told

theorem ofObject_ne_leaf (side : Side) (site : Site) (node : Members) (field : Field) :
    ofObject side site node ≠ .leaf field := by
  unfold ofObject
  split
  · simp
  · split
    · simp
    · simp
    · split <;> simp

theorem ofTyped_coherent {side : Side} {site : Site} {node : Members} {field : Field}
    (told : ofTyped side site node = .leaf field) : field.Coherent := by
  unfold ofTyped at told
  split at told
  next type _ =>
    cases type with
    | integer =>
      cases told
      exact ⟨rfl, trivial⟩
    | number => exact Node.numberField_coherent (ofResult_leaf told)
    | array =>
      unfold ofType at told
      dsimp only at told
      split at told <;> cases told
    | object => exact absurd told (ofObject_ne_leaf side site node field)
    | boolean =>
      cases told
      exact ⟨rfl, trivial⟩
    | text => exact Node.textField_coherent (ofResult_leaf told)
  next => cases told

theorem ofNode_coherent {manner : Manner} {site : Site} {node : Json} {field : Field}
    (told : ofNode manner site node = .leaf field) : field.Coherent := by
  obtain ⟨members, _, rfl, _⟩ := ofNode_object told (by simp)
  cases manner with
  | definition =>
    simp only [ofNode] at told
    split at told
    · exact ofTyped_coherent told
    · split at told
      · cases told
      · split at told
        · cases told
        · exact absurd told (ofObject_ne_leaf _ _ _ _)
  | property =>
    simp only [ofNode] at told
    split at told
    · cases told
    · split at told
      · exact ofTyped_coherent told
      · split at told
        · cases told
        · split at told
          · exact absurd told (ofObject_ne_leaf _ _ _ _)
          · cases told
  | typed => exact ofTyped_coherent told

end Shape

/-- The names kept by an object are those of its fields. -/
theorem Field.coherent_object (name : Option String) (required : Option Bool) (fields : List Field)
    {requiredNames : List String} (distinct : requiredNames.Nodup) (named : "" ∉ requiredNames) :
    (Field.object name required fields
      (requiredNames.filter fun name => (fields.map Field.name).contains (some name))).Coherent := by
  refine ⟨distinct.filter _, fun among => named (List.mem_filter.mp among).1, fun name among => ?_⟩
  simpa using (List.mem_filter.mp among).2

theorem Yields.made_coherent {context : Context σ} {manner : Manner} {site : Site} {node : Json} {inner : List Inner}
    {making : Making} {fields : List Field} {made : Field} {before after : State σ}
    (shape : Shape.ofNode manner site node = .group inner making)
    (each : Yields context (.all manner.side inner) before fields after) (makes : making.make fields = .ok (some made)) :
    made.Coherent := by
  obtain ⟨members, place, rfl, _, form⟩ := Shape.ofNode_object shape (by simp)
  have names := each.names_sublist.subset
  cases form with
  | array =>
    cases fields with
    | nil => cases makes
    | cons element rest =>
      obtain ⟨minItems, unique, rfl, _⟩ := Making.make_array makes
      have named : element.name ∈ [none] := names List.mem_cons_self
      exact ⟨rfl, List.mem_singleton.mp named⟩
  | listed =>
    cases makes
    exact Field.coherent_object _ _ _ (Node.nodup_requiredNames members) (Node.not_mem_requiredNames members)
  | map =>
    cases fields with
    | nil => cases makes
    | cons value rest =>
      cases makes
      have named : value.name ∈ [some Field.mapValueName] := names List.mem_cons_self
      exact ⟨rfl, List.mem_singleton.mp named⟩
  | own =>
    cases makes
    exact Field.coherent_object _ _ _ List.nodup_nil List.not_mem_nil

/-- Coherence is a law for whatever tasks are visited. -/
theorem Field.Law.coherent (context : Context σ) (visited : Task → State σ → Prop) :
    Law context visited Field.Coherent where
  rename {field} name coherent := by
    cases field <;> exact coherent
  withRequired {field} required inObject composite coherent := by
    cases field with
    | scalar _ _ type => cases type <;> cases composite
    | array => exact ⟨rfl, coherent.2⟩
    | object => exact coherent
    | map => exact ⟨rfl, coherent.2⟩
  leaf shape := Shape.ofNode_coherent shape
  made _ shape each makes := Yields.made_coherent shape each makes
  wrapped wraps := by
    obtain ⟨minItems, rfl, _⟩ := Node.arrayField_of_ok none wraps
    exact ⟨rfl, Field.name_rename _ _⟩
  merged _ _ _ _ _ := ⟨List.nodup_nil, List.not_mem_nil, List.forall_mem_nil _⟩
  empty _ := ⟨List.nodup_nil, List.not_mem_nil, List.forall_mem_nil _⟩

/-! What is cached -/

/-- No name is cached twice. -/
def Conduct.distinct (σ : Type) : Conduct σ where
  states state := state.cache.Distinct
  failures _ := True
  logged := fun _ distinct => distinct
  under := fun _ distinct => distinct
  fails := fun _ => trivial

theorem Conduct.permits_distinct (context : Context σ) : (Conduct.distinct σ).Permits context fun _ => False := by
  constructor
  · intro count _ state distinct
    refine ⟨?_, ?_⟩
    · cases ((Resolve.choose context count).outcome state).1 <;> trivial
    · rw [Resolve.outcome_choose_snd]
      exact distinct
  · exact fun {name _} _ _ _ field distinct => distinct.insert name field
  · exact fun impossible => impossible.elim
  · exact fun impossible => impossible.elim
  · exact fun impossible => impossible.elim

/-- A field is cached under the name of a definition, which is its own. -/
theorem Context.makes_named (context : Context σ) :
    context.Makes fun name field => name ∈ context.definitions.map Prod.fst ∧ field.name = some name := by
  intro name body site before fields after source named _ walked field among
  have declared : ∃ members, context.definitions.given? name = some (.object members) := by
    cases source with
    | own given => exact ⟨_, given⟩
    | behind _ given => exact ⟨_, given⟩
  obtain ⟨members, given⟩ := declared
  exact ⟨List.mem_map_of_mem (Members.mem_of_given? given), (walked.named field among).trans named⟩

namespace Document

theorem Passes.distinct {root : Members} {selector : Selector σ} {start : σ} {middle after : State σ}
    {properties : List Field} (passes : Passes root selector start middle properties after) :
    after.cache.Distinct := by
  have permits := Conduct.permits_distinct (context root selector)
  have fresh : (State.fresh start).cache.Distinct := List.nodup_nil
  exact permits.yields passes.properties (permits.definesAll (fun _ among => among) passes.definitions fresh)

/-- Every field of a schema is coherent, at any depth, and a definition of it is one that the document declares and bears
the name under which it stands. -/
theorem coherent_of_resolved {bound : Nat} {selector : Selector σ} {start : σ} {document : Document} {schema : Schema}
    (wellFormed : document.WellFormed) (resolved : (document.resolveWithin bound selector start).result = .ok schema) :
    (∀ field ∈ schema.properties, field.Everywhere Field.Coherent) ∧
    ∀ name field, (name, field) ∈ schema.definitions → field.Everywhere Field.Coherent ∧
      name ∈ document.declarations.map Prod.fst ∧ field.name = some name := by
  obtain ⟨root, _, properties, last, rooted, passes, rfl⟩ := passes_of_resolved resolved
  have distinct := distinct_declarations wellFormed
  rw [declarations_of_root rooted] at distinct ⊢
  obtain ⟨cached, coherent⟩ := passes.upholds (.coherent _ _)
  refine ⟨coherent, fun name field among => ?_⟩
  have known := passes.distinct.get?_of_mem among
  exact ⟨cached name field known, passes.every distinct (Context.makes_named _) name field known⟩

/-- A link leads to another link, which is dropped, and holds a date. -/
def links : Members :=
  [("definitions", .object [("Link", .object
    [("type", .string "object"),
     ("properties", .object
       [("made", .object [("type", .string "string"), ("format", .string "date")]),
        ("next", .object [("$ref", .string "#/definitions/Link")])]),
     ("required", .array [.string "next", .string "made"])])])]

/-- The link, with the date that is left of it. -/
def link : Field := .object (some "Link") (some true) [.scalar (some "made") none (.date "date")] ["made"]

theorem coherent_links : ∃ schema,
    ((Document.value (.object links)).resolveWithin 20 Selector.first ()).result = .ok schema ∧
      ("Link", link) ∈ schema.definitions ∧ link.Everywhere Field.Coherent ∧ link.name = some "Link" := by
  have wellFormed : (Document.value (.object links)).WellFormed := by
    unfold Document.WellFormed
    decide
  obtain ⟨schema, resolved⟩ : ∃ schema,
      ((Document.value (.object links)).resolveWithin 20 Selector.first ()).result = .ok schema :=
    ⟨_, rfl⟩
  have among : ("Link", link) ∈ schema.definitions := by
    cases resolved
    exact List.mem_singleton.mpr rfl
  obtain ⟨coherent, _, named⟩ := (coherent_of_resolved wellFormed resolved).2 "Link" link among
  exact ⟨schema, resolved, among, coherent, named⟩

end Document
end FieldTree
