import FieldTree.Json.Reader
import FieldTree.Proofs.Json.Parts

/-! No object has a key twice: a value that is read from text keeps the last value for each key. -/

namespace FieldTree

namespace Entries

variable {α : Type}

def Distinct (entries : Entries α) : Prop := (entries.map Prod.fst).Nodup

instance (entries : Entries α) : Decidable entries.Distinct :=
  inferInstanceAs (Decidable (entries.map Prod.fst).Nodup)

theorem keys_insert (entries : Entries α) (key : String) (value : α) {other : String}
    (among : other ∈ (entries.insert key value).map Prod.fst) : other = key ∨ other ∈ entries.map Prod.fst := by
  induction entries with
  | nil => simpa [insert] using among
  | cons entry rest ih =>
    obtain ⟨here, old⟩ := entry
    by_cases same : here = key
    · simp only [insert, same, ite_true, List.map_cons, List.mem_cons] at among ⊢
      exact among.elim .inl fun later => .inr (.inr later)
    · simp only [insert, same, ite_false, List.map_cons, List.mem_cons] at among ⊢
      rcases among with first | later
      · exact .inr (.inl first)
      · exact (ih later).elim .inl fun older => .inr (.inr older)

theorem Distinct.insert {entries : Entries α} (distinct : entries.Distinct) (key : String) (value : α) :
    (entries.insert key value).Distinct := by
  induction entries with
  | nil => exact List.nodup_cons.mpr ⟨List.not_mem_nil, List.nodup_nil⟩
  | cons entry rest ih =>
    obtain ⟨here, old⟩ := entry
    obtain ⟨new, distinct⟩ := List.nodup_cons.mp distinct
    by_cases same : here = key
    · simp only [Entries.insert, same, ite_true]
      exact List.nodup_cons.mpr ⟨same ▸ new, distinct⟩
    · simp only [Entries.insert, same, ite_false]
      refine List.nodup_cons.mpr ⟨fun among => ?_, ih distinct⟩
      exact (keys_insert rest key value among).elim same new

theorem mem_insert {entries : Entries α} {key : String} {value : α} {entry : String × α}
    (among : entry ∈ entries.insert key value) : entry.2 = value ∨ entry ∈ entries := by
  induction entries with
  | nil =>
    rw [List.mem_singleton.mp among]
    exact .inl rfl
  | cons first rest ih =>
    obtain ⟨here, old⟩ := first
    by_cases same : here = key
    · simp only [insert, same, ite_true] at among
      rcases List.mem_cons.mp among with rfl | later
      · exact .inl rfl
      · exact .inr (List.mem_cons_of_mem _ later)
    · simp only [insert, same, ite_false] at among
      rcases List.mem_cons.mp among with rfl | later
      · exact .inr List.mem_cons_self
      · exact (ih later).elim .inl fun older => .inr (List.mem_cons_of_mem _ older)

theorem Distinct.get?_of_mem {entries : Entries α} (distinct : entries.Distinct) {key : String} {value : α}
    (member : (key, value) ∈ entries) : entries.get? key = some value := by
  induction entries with
  | nil => cases member
  | cons entry rest ih =>
    obtain ⟨here, old⟩ := entry
    obtain ⟨new, distinct⟩ := List.nodup_cons.mp distinct
    rcases List.mem_cons.mp member with same | later
    · cases same
      simp only [get?, ite_true]
    · have different : here ≠ key := by
        rintro rfl
        exact new (List.mem_map.mpr ⟨_, later, rfl⟩)
      simp only [get?, different, ite_false]
      exact ih distinct later

/-- Where keys are distinct their order does not matter. -/
theorem get?_of_perm {entries others : Entries α} (distinct : entries.Distinct) (perm : entries.Perm others)
    (key : String) :
    others.get? key = entries.get? key := by
  have distinct' : others.Distinct := (perm.map Prod.fst).nodup_iff.mp distinct
  cases found : entries.get? key with
  | some value => exact distinct'.get?_of_mem (perm.mem_iff.mp (mem_of_get?_eq_some found))
  | none =>
    cases found' : others.get? key with
    | some value =>
      rw [distinct.get?_of_mem (perm.mem_iff.mpr (mem_of_get?_eq_some found'))] at found
      cases found
    | none => rfl

end Entries

namespace Json

def Distinct (value : Json) : Prop := ∀ members, .object members ∈ value.parts → Entries.Distinct members

instance (value : Json) : Decidable value.Distinct :=
  decidable_of_iff (∀ part ∈ value.parts, ∀ members ∈ part.members?, Entries.Distinct members)
    ⟨fun distinct members among => distinct _ among members rfl, fun distinct part among members same => by
      cases part <;> cases same
      exact distinct members among⟩

theorem Distinct.of_array {items : List Json} (distinct : ∀ item ∈ items, item.Distinct) :
    (Json.array items).Distinct := by
  intro members among
  rcases List.mem_cons.mp among with impossible | inside
  · cases impossible
  · obtain ⟨item, member, inside⟩ := mem_partsOfItems.mp inside
    exact distinct item member members inside

theorem Distinct.of_object {members : Members} (keys : Entries.Distinct members)
    (distinct : ∀ entry ∈ members, entry.2.Distinct) :
    (Json.object members).Distinct := by
  intro inner among
  rcases List.mem_cons.mp among with same | inside
  · cases same
    exact keys
  · obtain ⟨entry, member, inside⟩ := mem_partsOfMembers.mp inside
    exact distinct entry member inner inside

/-! Reading -/

namespace Token

def Distinct : Token → Prop
  | .atom value => value.Distinct
  | _ => True

theorem distinct_of_word? {chars : List Char} {value : Json} (word : word? chars = some value) : value.Distinct := by
  have scalar : (∃ number, value = .number number) ∨ value = .null ∨ ∃ bool, value = .bool bool := by
    unfold word? at word
    split at word
    all_goals first
      | obtain ⟨number, _, rfl⟩ := Option.map_eq_some_iff.mp word
        exact .inl ⟨_, rfl⟩
      | cases word
        first
          | exact .inr (.inl rfl)
          | exact .inr (.inr ⟨_, rfl⟩)
          | exact .inl ⟨_, rfl⟩
  intro members among
  rcases scalar with ⟨number, rfl⟩ | rfl | ⟨bool, rfl⟩ <;> simp [parts] at among

def Scan.Distinct (scan : Scan) : Prop := ∀ token ∈ scan.tokens, token.Distinct

theorem Scan.distinct_between {tokens : List Token} (distinct : ∀ token ∈ tokens, token.Distinct) (c : Char) :
    (between tokens c).Distinct := by
  unfold between
  split
  · exact distinct
  · split
    · exact distinct
    · split
      next mark marked =>
        refine List.forall_mem_cons.mpr ⟨?_, distinct⟩
        unfold mark? at marked
        split at marked <;> cases marked <;> trivial
      next => exact distinct

theorem Scan.Distinct.step {scan next : Scan} {c : Char} (distinct : scan.Distinct) (steps : scan.step c = some next) :
    next.Distinct := by
  unfold Scan.step at steps
  split at steps
  · cases steps
    exact distinct_between distinct c
  · split at steps
    · obtain ⟨value, word, rfl⟩ := Option.map_eq_some_iff.mp steps
      have atom : (Token.atom value).Distinct := distinct_of_word? word
      exact distinct_between (List.forall_mem_cons.mpr ⟨atom, distinct⟩) c
    · cases steps
      exact distinct
  · split at steps
    · cases steps
      exact List.forall_mem_cons.mpr ⟨trivial, distinct⟩
    · split at steps
      · cases steps
        exact distinct
      · split at steps
        · cases steps
        · cases steps
          exact distinct
  · split at steps
    · cases steps
      exact distinct
    · obtain ⟨code, _, rfl⟩ := Option.map_eq_some_iff.mp steps
      exact distinct
  · obtain ⟨digit, _, rfl⟩ := Option.map_eq_some_iff.mp steps
    split <;> exact distinct

end Token

theorem foldlM_keeps {α β : Type} {step : β → α → Option β} {holds : β → Prop} {each : α → Prop}
    (keeps : ∀ {state next item}, each item → holds state → step state item = some next → holds next) {items : List α}
    (all : ∀ item ∈ items, each item) {start last : β} (first : holds start)
    (folds : items.foldlM step start = some last) :
    holds last := by
  induction items generalizing start with
  | nil =>
    cases folds
    exact first
  | cons item rest ih =>
    obtain ⟨middle, steps, folds⟩ := Option.bind_eq_some_iff.mp folds
    exact ih (fun item later => all item (List.mem_cons_of_mem _ later))
      (keeps (all item List.mem_cons_self) first steps) folds

theorem Token.distinct_of_ofChars? {chars : List Char} {tokens : List Token} (read : ofChars? chars = some tokens) :
    ∀ token ∈ tokens, token.Distinct := by
  obtain ⟨scan, folds, finishes⟩ := Option.bind_eq_some_iff.mp read
  have empty : Scan.start.Distinct := List.forall_mem_nil _
  have distinct : scan.Distinct :=
    @foldlM_keeps _ _ _ _ (fun _ => True) (fun _ distinct steps => distinct.step steps) _
      (fun _ _ => trivial) _ _ empty folds
  unfold Scan.finish at finishes
  split at finishes
  · cases finishes
    exact fun token among => distinct token (List.mem_reverse.mp among)
  · obtain ⟨value, word, rfl⟩ := Option.map_eq_some_iff.mp finishes
    intro token among
    rcases List.mem_cons.mp (List.mem_reverse.mp among) with rfl | earlier
    · exact distinct_of_word? word
    · exact distinct token earlier
  · cases finishes

namespace Reader

def Frame.Distinct : Frame → Prop
  | .array items => ∀ item ∈ items, item.Distinct
  | .object members _ => Entries.Distinct members ∧ ∀ entry ∈ members, entry.2.Distinct

structure State.Distinct (state : State) : Prop where
  frames : ∀ frame ∈ state.frames, frame.Distinct
  value : ∀ value, state.awaiting = .nothing value → value.Distinct

theorem distinct_supply {frames : List Frame} (distinct : ∀ frame ∈ frames, frame.Distinct) {value : Json}
    (given : value.Distinct) : (supply frames value).Distinct := by
  cases frames with
  | nil =>
    refine ⟨List.forall_mem_nil _, fun other same => ?_⟩
    cases same
    exact given
  | cons frame outer =>
    obtain ⟨here, outside⟩ := List.forall_mem_cons.mp distinct
    cases frame with
    | array items =>
      refine ⟨List.forall_mem_cons.mpr ⟨?_, outside⟩, fun _ impossible => by cases impossible⟩
      exact List.forall_mem_cons.mpr ⟨given, here⟩
    | object members key =>
      refine ⟨List.forall_mem_cons.mpr ⟨⟨here.1.insert key value, fun entry among => ?_⟩, outside⟩,
        fun _ impossible => by cases impossible⟩
      rcases Entries.mem_insert among with same | older
      · exact same ▸ given
      · exact here.2 entry older

section
variable {limit : Nat} {frames : List Frame} {token : Token} {next : State}

theorem distinct_atValue (distinct : ∀ frame ∈ frames, frame.Distinct) (given : token.Distinct)
    (steps : atValue limit frames token = some next) : next.Distinct := by
  unfold atValue at steps
  split at steps
  · cases steps
    exact distinct_supply distinct given
  · cases steps
    exact distinct_supply distinct fun members impossible => by simp [parts] at impossible
  · split at steps
    · cases steps
      exact ⟨List.forall_mem_cons.mpr ⟨List.forall_mem_nil _, distinct⟩, fun _ impossible => by cases impossible⟩
    · cases steps
  · split at steps
    · cases steps
      exact ⟨List.forall_mem_cons.mpr ⟨⟨List.nodup_nil, List.forall_mem_nil _⟩, distinct⟩,
        fun _ impossible => by cases impossible⟩
    · cases steps
  · cases steps

theorem distinct_close (distinct : ∀ frame ∈ frames, frame.Distinct) (steps : close frames token = some next) :
    next.Distinct := by
  unfold close at steps
  split at steps
  · split at steps
    · cases steps
      obtain ⟨here, outside⟩ := List.forall_mem_cons.mp distinct
      exact distinct_supply outside (.of_array fun item among => here item (List.mem_reverse.mp among))
    · cases steps
  · split at steps
    · cases steps
      obtain ⟨here, outside⟩ := List.forall_mem_cons.mp distinct
      exact distinct_supply outside (.of_object here.1 here.2)
    · cases steps
  · cases steps

theorem distinct_atKey (distinct : ∀ frame ∈ frames, frame.Distinct) (steps : atKey frames token = some next) :
    next.Distinct := by
  unfold atKey at steps
  split at steps
  · split at steps
    · cases steps
      obtain ⟨here, outside⟩ := List.forall_mem_cons.mp distinct
      exact ⟨List.forall_mem_cons.mpr ⟨here, outside⟩, fun _ impossible => by cases impossible⟩
    · cases steps
  · cases steps

end

theorem State.Distinct.step {limit : Nat} {state next : State} {token : Token} (given : token.Distinct)
    (distinct : state.Distinct) (steps : Reader.step limit state token = some next) : next.Distinct := by
  unfold Reader.step at steps
  split at steps
  · exact distinct_atValue distinct.frames given steps
  · exact distinct_close distinct.frames steps
  · exact distinct_atValue distinct.frames given steps
  · exact distinct_close distinct.frames steps
  · exact distinct_atKey distinct.frames steps
  · exact distinct_atKey distinct.frames steps
  · cases steps
    exact ⟨distinct.frames, fun _ impossible => by cases impossible⟩
  · split at steps
    · cases steps
      exact ⟨distinct.frames, fun _ impossible => by cases impossible⟩
    · cases steps
      exact ⟨distinct.frames, fun _ impossible => by cases impossible⟩
    · cases steps
  · exact distinct_close distinct.frames steps
  · cases steps

end Reader

theorem distinct_of_read? {text : String} {value : Json} (read : read? text = some value) : value.Distinct := by
  obtain ⟨tokens, tokenized, read⟩ := Option.bind_eq_some_iff.mp read
  obtain ⟨last, folds, finishes⟩ := Option.bind_eq_some_iff.mp read
  have distinct : last.Distinct := foldlM_keeps (fun given distinct steps => distinct.step given steps)
    (Token.distinct_of_ofChars? tokenized) ⟨List.forall_mem_nil _, fun _ impossible => by cases impossible⟩ folds
  unfold Reader.finish at finishes
  split at finishes
  next awaiting =>
    cases finishes
    exact distinct.value value awaiting
  next => cases finishes

end Json
end FieldTree
