import Wayfinder.Proofs.Columns
import Mathlib.Order.Bounds.Basic

/-!
# Between character columns and byte columns

The two conversions of columns are inverse to each other, up to what both of them do with
places that are no places: one past the end of a line is moved to the end, and one inside a
character is moved behind that character.

* `Text.charColumn_le_iff`: a byte offset has a character column of at most `column` exactly
  if it is not past the first `column` characters.  Both roundtrips and the order are read off
  this.
* `Text.isValid_iff`: the valid positions of a string are the byte columns of its characters
  and of its end.
* `Text.columns_inverse`: the two roundtrips, and that both conversions keep the order.
-/

namespace Wayfinder.Text

/-! ## Byte columns -/

theorem byteColumn_le_byteSize (line : List Char) (column : Nat) :
    byteColumn line column ≤ byteSize line := by
  have hsplit : byteSize (line.take column) + byteSize (line.drop column) = byteSize line := by
    rw [← byteSize_append, List.take_append_drop]
  rw [byteColumn_eq]
  omega

theorem byteColumn_mono (line : List Char) : Monotone (byteColumn line) := by
  intro column later hle
  have htake : line.take column = (line.take later).take column := by
    rw [List.take_take, Nat.min_eq_left hle]
  rw [byteColumn_eq line later, byteColumn_eq, htake, ← byteColumn_eq]
  exact byteColumn_le_byteSize _ _

/-! ## Character columns -/

/-- A byte offset has a character column of at most `column` exactly if it is not past the first
`column` characters, or if the line has no more characters. -/
theorem charColumn_le_iff {line : List Char} {offset column : Nat} :
    charColumn line offset ≤ column ↔
      offset ≤ byteColumn line column ∨ line.length ≤ column := by
  induction line generalizing offset column with
  | nil => simp [charColumn]
  | cons c rest ih =>
    have hpos : 0 < c.utf8Size := Char.utf8Size_pos c
    rw [charColumn]
    split
    · rename_i hzero
      simp [hzero]
    · rename_i hoffset
      cases column with
      | zero =>
        simp only [byteColumn, List.length_cons]
        omega
      | succ column =>
        have hrest := @ih (offset - c.utf8Size) column
        simp only [byteColumn, List.length_cons]
        omega

theorem charColumn_mono (line : List Char) : Monotone (charColumn line) := by
  intro offset later hle
  rw [charColumn_le_iff]
  have hlater := charColumn_le_iff.1 (Nat.le_refl (charColumn line later))
  omega

/-- From a character column to bytes and back. -/
theorem charColumn_byteColumn (line : List Char) (column : Nat) :
    charColumn line (byteColumn line column) = min column line.length := by
  have hcolumn := charColumn_byteSize (line.take column) (line.drop column)
  rw [List.take_append_drop, List.length_take] at hcolumn
  rw [byteColumn_eq]
  exact hcolumn

/-- From bytes to a character column and back one does not get to an earlier place of the line. -/
theorem min_le_byteColumn_charColumn (line : List Char) (offset : Nat) :
    min offset (byteSize line) ≤ byteColumn line (charColumn line offset) := by
  rcases charColumn_le_iff.1 (Nat.le_refl (charColumn line offset)) with hle | hlength
  · exact Nat.le_trans (Nat.min_le_left _ _) hle
  · rw [byteColumn_eq, List.take_of_length_le hlength]
    exact Nat.min_le_right _ _

/-- From bytes to a character column and back one does not pass a character. -/
theorem byteColumn_charColumn_le {line : List Char} {offset column : Nat}
    (h : min offset (byteSize line) ≤ byteColumn line column) :
    byteColumn line (charColumn line offset) ≤ byteColumn line column := by
  by_cases hoffset : offset ≤ byteColumn line column
  · exact byteColumn_mono line (charColumn_le_iff.2 (Or.inl hoffset))
  · -- the offset is past the column, so the column is at the end of the line
    have hend : byteSize line ≤ byteColumn line column := by omega
    exact Nat.le_trans (byteColumn_le_byteSize _ _) hend

/-! ## Valid positions -/

/-- The valid positions of a string are the byte columns of its characters and of its end. -/
theorem isValid_iff {line : String} {offset : Nat} :
    String.Pos.Raw.IsValid line ⟨offset⟩ ↔ ∃ column, offset = byteColumn line.toList column := by
  rw [String.Pos.Raw.isValid_iff_exists_append]
  constructor
  · rintro ⟨front, rest, rfl, hoffset⟩
    refine ⟨front.toList.length, ?_⟩
    rw [byteColumn_eq, String.toList_append, List.take_left, byteSize_toList]
    exact congrArg String.Pos.Raw.byteIdx hoffset
  · rintro ⟨column, rfl⟩
    refine ⟨String.ofList (line.toList.take column), String.ofList (line.toList.drop column),
      ?_, ?_⟩
    · rw [← String.toList_inj]
      simp
    · rw [byteColumn_eq, ← utf8ByteSize_ofList]
      rfl

/-- The conversions of columns are inverse to each other.  A character column leads back to
itself, or to the end of the line if it is past it.  A byte offset leads to the first valid
position that is not before it, or to the end of the line if it is past it.  Both conversions
keep the order. -/
theorem columns_inverse (line : String) :
    (∀ column, charColumn line.toList (byteColumn line.toList column) =
      min column line.length) ∧
    (∀ offset, IsLeast
      {place | String.Pos.Raw.IsValid line ⟨place⟩ ∧ min offset line.utf8ByteSize ≤ place}
      (byteColumn line.toList (charColumn line.toList offset))) ∧
    Monotone (charColumn line.toList) ∧ Monotone (byteColumn line.toList) := by
  refine ⟨?_, ?_, charColumn_mono _, byteColumn_mono _⟩
  · intro column
    rw [charColumn_byteColumn, String.length_toList]
  · intro offset
    rw [← byteSize_toList]
    refine ⟨⟨isValid_iff.2 ⟨_, rfl⟩, min_le_byteColumn_charColumn _ _⟩, ?_⟩
    rintro place ⟨hvalid, hle⟩
    obtain ⟨column, rfl⟩ := isValid_iff.1 hvalid
    exact byteColumn_charColumn_le hle

/-- An offset inside the first character, one inside the last, and one past the end. -/
example : (byteColumn "é日".toList (charColumn "é日".toList 1),
    byteColumn "é日".toList (charColumn "é日".toList 4),
    byteColumn "é日".toList (charColumn "é日".toList 9)) = (2, 5, 5) := by decide

end Wayfinder.Text
