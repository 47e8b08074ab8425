import FieldTree.Listing.Format
import FieldTree.Proofs.Listing.Trails

/-! A list of leaves is read back from its text. Line feeds part the lines; in a line, the first tab parts the path and
its mark from the type. -/

namespace FieldTree

namespace Listing

/-- A type that stands in the list of the leaves of some fields. -/
def IsType (type : String) : Prop :=
  ∃ fields requiredNames leaves, ofFields fields requiredNames = .ok leaves ∧ type ∈ leaves.map Leaf.type

/-- The type of a leaf is told by its kind and by the trail that leads to it. -/
theorem IsType.told {type : String} (known : IsType type) :
    ∃ (kind : Kind) (trail : List Step), type = kind.name ++ suffix trail := by
  obtain ⟨fields, requiredNames, leaves, ok, among⟩ := known
  rw [ofFields_eq, addAll_ok_iff] at ok
  obtain ⟨_, rfl⟩ := ok
  obtain ⟨leaf, listed, rfl⟩ := List.mem_map.mp among
  obtain ⟨stop, _, told⟩ := List.mem_filterMap.mp listed
  cases stop with
  | leaf trail kind =>
    cases told
    exact ⟨kind, trail, rfl⟩
  | unnamed => cases told

theorem unbroken_suffixOut (outside : List Step) : '\n' ∉ (suffixOut outside).toList := by
  induction outside with
  | nil => decide
  | cons step outside ih => cases step <;> simp [suffixOut, ih]

theorem IsType.unbroken {type : String} (known : IsType type) : '\n' ∉ type.toList := by
  obtain ⟨kind, trail, rfl⟩ := known.told
  have named : '\n' ∉ kind.name.toList := by cases kind <;> decide
  simp [named, suffix, unbroken_suffixOut]

end Listing

namespace Leaf

/-- A leaf whose line can be read: neither a tab, a line feed nor a star at the end of the path is taken for what it is
not, and the type is one that lists have. -/
structure Plain (leaf : Leaf) : Prop where
  untabbed : '\t' ∉ leaf.path.toList
  unbroken : '\n' ∉ leaf.path.toList
  unstarred : leaf.path.toList.getLast? ≠ some '*'
  typed : Listing.IsType leaf.type

/-- The path with its mark. -/
def marked (leaf : Leaf) : List Char := leaf.path.toList ++ if leaf.required then ['*'] else []

theorem toList_line (leaf : Leaf) : leaf.line.toList = leaf.marked ++ '\t' :: leaf.type.toList := by
  cases required : leaf.required <;> simp [line, marked, required]

/-- The path without its mark, and whether there was one. -/
def unmarked (chars : List Char) : List Char × Bool :=
  if chars.getLast? = some '*' then (chars.dropLast, true) else (chars, false)

/-- Reads a leaf from its line. -/
def ofLine (chars : List Char) : Leaf :=
  let (path, required) := unmarked (chars.takeWhile (· ≠ '\t'))
  ⟨String.ofList path, String.ofList (chars.dropWhile (· ≠ '\t')).tail, required⟩

variable {leaf : Leaf}

theorem Plain.unmarked (plain : leaf.Plain) : Leaf.unmarked leaf.marked = (leaf.path.toList, leaf.required) := by
  cases required : leaf.required with
  | true => simp [Leaf.unmarked, marked, required]
  | false => simp [Leaf.unmarked, marked, required, plain.unstarred]

theorem Plain.untabbed_marked (plain : leaf.Plain) : ∀ c ∈ leaf.marked, decide (c ≠ '\t') = true := by
  intro c among
  rw [decide_eq_true_iff]
  rintro rfl
  rcases List.mem_append.mp among with inside | mark
  · exact plain.untabbed inside
  · split at mark <;> simp at mark

theorem Plain.unbroken_line (plain : leaf.Plain) : '\n' ∉ leaf.line.toList := by
  have typed := plain.typed.unbroken
  rw [toList_line, marked]
  split <;> simp [plain.unbroken, typed]

theorem Plain.ofLine_line (plain : leaf.Plain) : ofLine leaf.line.toList = leaf := by
  have path : leaf.line.toList.takeWhile (· ≠ '\t') = leaf.marked := by
    rw [toList_line, List.takeWhile_append_of_pos plain.untabbed_marked]
    simp
  have type : (leaf.line.toList.dropWhile (· ≠ '\t')).tail = leaf.type.toList := by
    rw [toList_line, List.dropWhile_append_of_pos plain.untabbed_marked]
    simp
  simp only [ofLine, path, type, plain.unmarked, String.ofList_toList]

end Leaf

namespace Listing

/-- Reads a list of leaves from its text. Only the empty list has no text at all. -/
def ofLines (text : String) : List Leaf :=
  if text = "" then [] else (text.toList.splitOn '\n').map Leaf.ofLine

variable {leaves leaves' : List Leaf}

theorem toList_text (leaves : List Leaf) :
    (text leaves).toList = ['\n'].intercalate (leaves.map fun leaf => leaf.line.toList) := by
  simp [text, Function.comp_def]

/-- Every line has a tab in it, so a list of leaves has no empty text. -/
theorem text_ne_empty (leaf : Leaf) (rest : List Leaf) : text (leaf :: rest) ≠ "" := by
  intro empty
  have chars := congrArg String.toList empty
  rw [toList_text] at chars
  cases rest <;> simp [Leaf.toList_line] at chars

theorem ofLines_text (plain : ∀ leaf ∈ leaves, leaf.Plain) : ofLines (text leaves) = leaves := by
  cases leaves with
  | nil => rfl
  | cons leaf rest =>
    have lines : (text (leaf :: rest)).toList.splitOn '\n' = (leaf :: rest).map fun leaf => leaf.line.toList := by
      rw [toList_text]
      refine List.splitOn_intercalate '\n' ?_ (by simp)
      intro line among
      obtain ⟨other, listed, rfl⟩ := List.mem_map.mp among
      exact (plain other listed).unbroken_line
    rw [ofLines, if_neg (text_ne_empty leaf rest), lines, List.map_map]
    exact (List.map_congr_left fun leaf among => (plain leaf among).ofLine_line).trans (List.map_id _)

/-- Lists of leaves with one text are the same, leaf for leaf. -/
theorem render_text_inj (plain : ∀ leaf ∈ leaves, leaf.Plain) (plain' : ∀ leaf ∈ leaves', leaf.Plain) :
    render .text leaves = render .text leaves' ↔ leaves = leaves' := by
  constructor
  · intro same
    calc leaves = ofLines (text leaves) := (ofLines_text plain).symm
      _ = ofLines (text leaves') := congrArg ofLines same
      _ = leaves' := ofLines_text plain'
  · exact congrArg (render .text)

/-- A star at the end of a path would be taken for the mark of a required leaf. -/
example : render .text [⟨"id*", "integer", false⟩] = render .text [⟨"id", "integer", true⟩] := by decide

/-- Books have tags and a number. -/
def book : List Leaf := [⟨"tags[]", "boolean-array", true⟩, ⟨"number", "integer", false⟩]

theorem ofFields_book : ofFields [.array (some "tags") (some true) (.scalar none none .boolean) .zero false,
    .scalar (some "number") (some false) .integer] [] = .ok book := rfl

theorem plain_book : ∀ leaf ∈ book, leaf.Plain := by
  have typed : ∀ leaf ∈ book, IsType leaf.type := fun leaf among =>
    ⟨_, _, _, ofFields_book, List.mem_map_of_mem among⟩
  exact fun leaf among => ⟨by revert leaf; decide, by revert leaf; decide, by revert leaf; decide, typed leaf among⟩

/-- No fewer leaves and no other order of them give the same text. -/
theorem render_text_inj_book : (∀ leaf ∈ book, leaf.Plain) ∧
    ∀ other ∈ [[], book.take 1, book.reverse], (∀ leaf ∈ other, leaf.Plain) ∧ render .text book ≠ render .text other := by
  refine ⟨plain_book, fun other among => ?_⟩
  have plain : ∀ leaf ∈ other, leaf.Plain := by
    have inside : ∀ other ∈ [[], book.take 1, book.reverse], ∀ leaf ∈ other, leaf ∈ book := by decide
    exact fun leaf listed => plain_book leaf (inside other among leaf listed)
  have different : ∀ other ∈ [[], book.take 1, book.reverse], book ≠ other := by decide
  exact ⟨plain, fun same => different other among ((render_text_inj plain_book plain).mp same)⟩

end Listing
end FieldTree
