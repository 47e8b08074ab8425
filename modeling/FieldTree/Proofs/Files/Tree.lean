import FieldTree.Proofs.Text.Encoding

/-! What a tree of files answers: a path that is followed to a file shows its text, and two trees that differ in
the bytes of one file answer alike about every other. -/

namespace FieldTree.FileTree

variable {tree : FileTree} {path : Path} {place : List String} {bytes : List UInt8} {text : String}

/-- The path leads to a file with the text. -/
structure Holds (tree : FileTree) (path : Path) (place : List String) (text : String) : Prop where
  reached : tree.follow path = .ok place
  written : (tree.content? place).bind textOfBytes? = some text

namespace Holds

theorem status (holds : tree.Holds path place text) : tree.status path = .ok .file := by
  obtain ⟨bytes, stored, _⟩ := Option.bind_eq_some_iff.mp holds.written
  simp [FileTree.status, holds.reached, statusAt, stored]

theorem read (holds : tree.Holds path place text) :
    ∃ bytes, tree.read path = .ok bytes ∧ textOfBytes? bytes = some text := by
  obtain ⟨bytes, stored, reads⟩ := Option.bind_eq_some_iff.mp holds.written
  refine ⟨bytes, ?_, reads⟩
  simp [FileTree.read, holds.reached, stored, bind, Except.bind, pure, Except.pure]

theorem ofPlain {chars : List Char} (reached : tree.follow path = .ok place)
    (stored : tree.content? place = some (Text.asciiBytes chars)) (plain : Text.isPlain chars = true) :
    tree.Holds path place (String.ofList chars) where
  reached
  written := by rw [stored, Option.bind_some, textOfBytes?_asciiBytes plain]

end Holds

theorem hasNull_of_follow (reached : tree.follow path = .ok place) : path.hasNull = false := by
  rw [← Bool.not_eq_true]
  intro null
  simp [follow, null] at reached

/-- A path as a configuration means it: seen from the directory of the configuration. -/
def seenFrom (tree : FileTree) (configuration path : Path) : Path :=
  if path.isAbsolute then path else Path.resolve ⟨"/", tree.directory⟩ (configuration.parent.join path)

theorem hasNull_join_parent {configuration : Path} (based : configuration.hasNull = false)
    (named : path.hasNull = false) : (configuration.parent.join path).hasNull = false := by
  unfold Path.join
  split
  · exact named
  · simp only [Path.hasNull, List.any_eq_false] at based named ⊢
    intro part among
    rcases List.mem_append.mp among with among | among
    · exact based part (List.dropLast_subset _ among)
    · exact named part among

/-! One file with other bytes -/

/-- Two trees that differ at most in the bytes of one file. -/
structure AlikeBut (place : List String) (first second : FileTree) : Prop where
  directory : first.directory = second.directory
  present : (first.content? place).isSome ∧ (second.content? place).isSome
  elsewhere : ∀ other, other ≠ place → first.content? other = second.content? other
  directories : ∀ parts, first.isDirectory parts = second.isDirectory parts

theorem content?_put (tree : FileTree) (place other : List String) (bytes : List UInt8) :
    (tree.put place bytes).content? other = if other = place then some bytes else tree.content? other := by
  unfold content? put
  by_cases same : other = place
  · simp [same]
  · have differs : ¬place = other := fun equal => same equal.symm
    rw [if_neg same, List.find?_cons_of_neg (by simpa using differs), List.find?_filter]
    congr 2
    funext entry
    by_cases here : entry.1 = other
    · simp [here, same]
    · simp [here]

theorem alikeBut_put (tree : FileTree) (place : List String) (bytes bytes' : List UInt8) :
    AlikeBut place (tree.put place bytes) (tree.put place bytes') where
  directory := rfl
  present := by simp [content?_put]
  elsewhere other differs := by simp [content?_put, differs]
  directories _ := rfl

namespace AlikeBut

variable {first second : FileTree}

theorem isSome_content? (alike : AlikeBut place first second) (other : List String) :
    (first.content? other).isSome = (second.content? other).isSome := by
  by_cases same : other = place
  · rw [same, alike.present.1, alike.present.2]
  · rw [alike.elsewhere other same]

theorem walk (alike : AlikeBut place first second) (path : Path) (parts : List String) (start : List String) :
    first.walk path start parts = second.walk path start parts := by
  induction parts generalizing start with
  | nil => rfl
  | cons part rest ih => simp only [FileTree.walk, alike.isSome_content?, alike.directories, ih]

theorem follow (alike : AlikeBut place first second) (path : Path) : first.follow path = second.follow path := by
  simp only [FileTree.follow, alike.walk, alike.directory]

theorem status (alike : AlikeBut place first second) (path : Path) : first.status path = second.status path := by
  simp only [FileTree.status, FileTree.statusAt, alike.follow, alike.isSome_content?, alike.directories]

theorem read (alike : AlikeBut place first second) (elsewhere : first.follow path ≠ .ok place) :
    first.read path = second.read path := by
  rw [alike.follow] at elsewhere
  simp only [FileTree.read, alike.follow, alike.directories]
  cases reached : second.follow path with
  | error error => rfl
  | ok other =>
    have differs : other ≠ place := by
      rintro rfl
      exact elsewhere reached
    simp only [bind, Except.bind, alike.elsewhere other differs]

end AlikeBut
end FieldTree.FileTree
