import FieldTree.Files.Access

/-! Text that is written with one byte for each character, and read back. -/

namespace FieldTree

namespace Text

/-- One byte for each character. -/
def asciiBytes (chars : List Char) : List UInt8 := chars.map fun c => UInt8.ofNat c.toNat

/-- Whether every character is one byte, and none ends a line in another way than with a line feed. -/
def isPlain (chars : List Char) : Bool := chars.all fun c => c.toNat < 0x80 && c != '\r'

theorem isPlain_append (chars chars' : List Char) : isPlain (chars ++ chars') = (isPlain chars && isPlain chars') :=
  List.all_append

theorem toNat_ofNat_of_ascii {c : Char} (ascii : c.toNat < 0x80) : (UInt8.ofNat c.toNat).toNat = c.toNat :=
  Nat.mod_eq_of_lt (by omega)

theorem step_of_ascii {c : Char} (ascii : c.toNat < 0x80) (codes : List Nat) :
    Utf8.step ⟨codes, none⟩ (UInt8.ofNat c.toNat) = some ⟨c.toNat :: codes, none⟩ := by
  simp only [Utf8.step, Utf8.lead?, toNat_ofNat_of_ascii ascii, ascii, if_true]

theorem foldlM_step_asciiBytes {chars : List Char} (ascii : ∀ c ∈ chars, c.toNat < 0x80) (codes : List Nat) :
    (asciiBytes chars).foldlM Utf8.step ⟨codes, none⟩ = some ⟨(chars.map Char.toNat).reverse ++ codes, none⟩ := by
  induction chars generalizing codes with
  | nil => rfl
  | cons c rest ih =>
    simp only [asciiBytes, List.map_cons, List.foldlM_cons, step_of_ascii (ascii c List.mem_cons_self)]
    refine (ih (fun d among => ascii d (List.mem_cons_of_mem c among)) (c.toNat :: codes)).trans ?_
    simp

theorem charOfCode_toNat (c : Char) : charOfCode c.toNat = c := by
  have valid : c.toNat.isValidChar := c.valid
  simp only [charOfCode, valid, if_true, Char.ofNat_toNat]

theorem ofUtf8?_asciiBytes {chars : List Char} (ascii : ∀ c ∈ chars, c.toNat < 0x80) :
    ofUtf8? (asciiBytes chars) = some (String.ofList chars) := by
  have codes : utf8Codes? (asciiBytes chars) = some (chars.map Char.toNat) := by
    simp [utf8Codes?, foldlM_step_asciiBytes ascii]
  have whole : ∀ c ∈ chars, isHighHalf c.toNat = false ∧ isLowHalf c.toNat = false := by
    intro c among
    have := ascii c among
    simp only [isHighHalf, isLowHalf, Bool.and_eq_false_iff, decide_eq_false_iff_not]
    omega
  simpa [ofUtf8?, codes, ofCodes, Function.comp_def, charOfCode_toNat] using whole

end Text

theorem unifyLineEnds_of_not_mem {chars : List Char} (none : '\r' ∉ chars) : unifyLineEnds chars = chars := by
  induction chars with
  | nil => rfl
  | cons c rest ih =>
    simp only [List.mem_cons, not_or] at none
    have plain : c ≠ '\r' := fun same => none.1 same.symm
    rw [unifyLineEnds, ih none.2]
    · exact fun _ same _ => plain same
    · exact plain

/-- Plain text is read back from its bytes. -/
theorem textOfBytes?_asciiBytes {chars : List Char} (plain : Text.isPlain chars = true) :
    textOfBytes? (Text.asciiBytes chars) = some (String.ofList chars) := by
  have each : ∀ c ∈ chars, c.toNat < 0x80 ∧ c ≠ '\r' := by simpa [Text.isPlain] using plain
  have feeds : '\r' ∉ chars := fun among => (each _ among).2 rfl
  rw [textOfBytes?, Text.ofUtf8?_asciiBytes fun c among => (each c among).1, Option.map_some, String.toList_ofList,
    unifyLineEnds_of_not_mem feeds]

end FieldTree
