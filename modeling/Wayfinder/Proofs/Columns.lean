import Wayfinder.Text.Column
import Mathlib.Data.List.Basic

/-!
# Places on a line, in characters and in bytes

A place on a line cuts it in two.  Its character column is the number of characters in
front of it, and its byte column the number of their bytes.

* `Text.byteColumn_eq`: the byte column of a character column is the size of what stands in
  front.
* `Text.charColumn_byteSize`: from the size of what stands in front one gets back to the
  character column.
-/

namespace Wayfinder.Text

/-! ## Sizes -/

@[simp] theorem byteSize_nil : byteSize [] = 0 := rfl

@[simp] theorem byteSize_cons (c : Char) (rest : List Char) :
    byteSize (c :: rest) = c.utf8Size + byteSize rest := rfl

@[simp] theorem byteSize_append (front rest : List Char) :
    byteSize (front ++ rest) = byteSize front + byteSize rest := by
  induction front with
  | nil => simp
  | cons c front ih =>
    rw [List.cons_append, byteSize_cons, byteSize_cons, ih]
    omega

/-- The size of a text is the number of bytes of the string with its characters. -/
theorem utf8ByteSize_ofList (text : List Char) :
    (String.ofList text).utf8ByteSize = byteSize text := by
  induction text with
  | nil => rfl
  | cons c rest ih =>
    have hcons : String.ofList (c :: rest) = String.singleton c ++ String.ofList rest := by
      rw [← String.toList_inj]
      simp
    rw [hcons, String.utf8ByteSize_append, String.utf8ByteSize_singleton, ih, byteSize_cons]

theorem byteSize_toList (text : String) : byteSize text.toList = text.utf8ByteSize := by
  rw [← utf8ByteSize_ofList, String.ofList_toList]

/-! ## Columns -/

/-- The byte column of a place is the size of what stands in front of it. -/
theorem byteColumn_eq (line : List Char) (column : Nat) :
    byteColumn line column = byteSize (line.take column) := by
  induction line generalizing column with
  | nil => simp [byteColumn]
  | cons c rest ih =>
    cases column with
    | zero => rfl
    | succ column =>
      rw [byteColumn, ih]
      rfl

theorem charColumn_zero (line : List Char) : charColumn line 0 = 0 := by
  cases line <;> rfl

/-- The size of what stands in front of a place leads back to its character column. -/
theorem charColumn_byteSize (front rest : List Char) :
    charColumn (front ++ rest) (byteSize front) = front.length := by
  induction front with
  | nil => exact charColumn_zero rest
  | cons c front ih =>
    have hpos : 0 < c.utf8Size := Char.utf8Size_pos c
    have hsize : byteSize (c :: front) ≠ 0 := by
      rw [byteSize_cons]
      omega
    have hoffset : byteSize (c :: front) - c.utf8Size = byteSize front := by
      rw [byteSize_cons]
      omega
    rw [List.cons_append, charColumn, if_neg hsize, hoffset, ih, List.length_cons]

end Wayfinder.Text
