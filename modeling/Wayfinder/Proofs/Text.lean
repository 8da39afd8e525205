import Wayfinder.Text.Blank
import Wayfinder.Text.Word
import Mathlib.Data.List.Basic
import Mathlib.Data.List.TakeWhile

/-!
# Classes of characters and trimming

* No blank is part of a word (`Text.not_isBlank_of_isWord`).  The tables of both
  classes are checked against each other on the code points of all blanks, which are
  few.
* Trimming a text keeps its first character that is not blank
  (`Text.trim_of_blank_append`), and a text without blanks at either end as it is
  (`Text.trim_eq_self`).  Blanks behind a text make no difference
  (`Text.trim_append_blanks`), and other characters leave the first one as it is
  (`Text.head?_trim_append`).
-/

namespace Wayfinder.Text

/-! ## Ranges of code points -/

/-- The code points that some ranges cover. -/
def codes (ranges : List (Nat × Nat)) : List Nat :=
  ranges.flatMap fun range => List.range' range.1 (range.2 + 1 - range.1)

theorem mem_codes_of_inRanges {ranges : List (Nat × Nat)} {code : Nat}
    (h : inRanges ranges code = true) : code ∈ codes ranges := by
  induction ranges with
  | nil => cases h
  | cons range more ih =>
    rw [codes, List.flatMap_cons, List.mem_append]
    rw [inRanges] at h
    split_ifs at h with hlow hhigh
    · left
      rw [List.mem_range'_1]
      omega
    · exact Or.inr (ih h)

private theorem blank_codes_not_isWord :
    ∀ code ∈ codes blankRanges, isWord (Char.ofNat code) = false := by
  decide +kernel

/-- A character of a word is not blank. -/
theorem not_isBlank_of_isWord {c : Char} (h : isWord c = true) : isBlank c = false := by
  by_contra hblank
  have hcode := mem_codes_of_inRanges (eq_true_of_ne_false hblank)
  have hword := blank_codes_not_isWord c.toNat hcode
  rw [Char.ofNat_toNat, h] at hword
  cases hword

/-- A blank is no character of a word. -/
theorem not_isWord_of_isBlank {c : Char} (h : isBlank c = true) : isWord c = false := by
  by_contra hword
  rw [not_isBlank_of_isWord (eq_true_of_ne_false hword)] at h
  cases h

/-- Space, tab, line feed, form feed and carriage return: the blanks that leave a line without
code when comments are told apart from code. -/
def isAsciiBlank (c : Char) : Bool :=
  c == ' ' || c == '\t' || c == '\n' || c == '\x0C' || c == '\r'

/-- The blanks among the first characters are blanks. -/
theorem isBlank_of_isAsciiBlank {c : Char} (h : isAsciiBlank c = true) : isBlank c = true := by
  simp only [isAsciiBlank, Bool.or_eq_true, beq_iff_eq] at h
  rcases h with (((rfl | rfl) | rfl) | rfl) | rfl <;> decide +kernel

/-! ## Trimming -/

theorem trimEnd_cons {c : Char} (hc : isBlank c = false) (rest : List Char) :
    trimEnd (c :: rest) = c :: trimEnd rest := by
  simp only [trimEnd, List.reverse_cons, List.dropWhile_append]
  split
  · rename_i hall
    simp [List.isEmpty_iff.1 hall, hc]
  · simp

/-- Blanks in front are trimmed up to the first character that is not blank. -/
theorem trim_of_blank_append {lead rest : List Char} {c : Char}
    (hlead : ∀ d ∈ lead, isBlank d = true) (hc : isBlank c = false) :
    trim (lead ++ c :: rest) = c :: trimEnd rest := by
  have hstart : trimStart (lead ++ c :: rest) = c :: rest := by
    rw [trimStart, List.dropWhile_append_of_pos hlead, List.dropWhile_cons_of_neg (by simp [hc])]
  rw [trim, hstart, trimEnd_cons hc]

private theorem dropWhile_isBlank {text : List Char} (h : ∀ c ∈ text.head?, isBlank c = false) :
    text.dropWhile isBlank = text := by
  cases text with
  | nil => rfl
  | cons c rest => exact List.dropWhile_cons_of_neg (by simp [h c rfl])

/-- Nothing is trimmed from a text without blanks at either end. -/
theorem trim_eq_self {text : List Char} (hhead : ∀ c ∈ text.head?, isBlank c = false)
    (hlast : ∀ c ∈ text.getLast?, isBlank c = false) : trim text = text := by
  have hreverse : text.reverse.dropWhile isBlank = text.reverse := by
    apply dropWhile_isBlank
    rwa [List.head?_reverse]
  rw [trim, trimStart, dropWhile_isBlank hhead, trimEnd, hreverse, List.reverse_reverse]

theorem trimEnd_append_blanks (text : List Char) {blanks : List Char}
    (h : ∀ c ∈ blanks, isBlank c = true) : trimEnd (text ++ blanks) = trimEnd text := by
  rw [trimEnd, trimEnd, List.reverse_append, List.dropWhile_append_of_pos]
  exact fun c hc => h c (List.mem_reverse.1 hc)

/-- Blanks behind a text are trimmed. -/
theorem trim_append_blanks (text : List Char) {blanks : List Char}
    (h : ∀ c ∈ blanks, isBlank c = true) : trim (text ++ blanks) = trim text := by
  rw [trim, trim, trimStart, trimStart, List.dropWhile_append]
  split
  · rename_i hnil
    rw [List.isEmpty_iff.1 hnil, List.dropWhile_eq_nil_iff.2 h]
  · exact trimEnd_append_blanks _ h

/-- A text of which something is left when it is trimmed has a first character that is not blank. -/
theorem exists_lead {text : List Char} (h : trim text ≠ []) :
    ∃ lead c rest, text = lead ++ c :: rest ∧ (∀ d ∈ lead, isBlank d = true) ∧
      isBlank c = false := by
  cases hstart : text.dropWhile isBlank with
  | nil => exact absurd (by rw [trim, trimStart, hstart]; rfl) h
  | cons c rest =>
    have hc := List.head?_dropWhile_not isBlank text
    rw [hstart] at hc
    exact ⟨text.takeWhile isBlank, c, rest, by rw [← hstart, List.takeWhile_append_dropWhile],
      fun d hd => List.mem_takeWhile_imp hd, hc⟩

/-- Something is left of a text with a character that is not blank. -/
theorem trim_ne_nil {text : List Char} {c : Char} (hmem : c ∈ text) (hc : isBlank c = false) :
    trim text ≠ [] := by
  cases hstart : text.dropWhile isBlank with
  | nil =>
    rw [List.dropWhile_eq_nil_iff.1 hstart c hmem] at hc
    cases hc
  | cons d rest =>
    have hd := List.head?_dropWhile_not isBlank text
    rw [hstart] at hd
    rw [trim, trimStart, hstart, trimEnd_cons hd]
    exact List.cons_ne_nil d _

/-- The first character of a trimmed text does not depend on what stands behind the text. -/
theorem head?_trim_append {text : List Char} (h : trim text ≠ []) (more : List Char) :
    (trim (text ++ more)).head? = (trim text).head? := by
  obtain ⟨lead, c, rest, rfl, hlead, hc⟩ := exists_lead h
  rw [List.append_assoc, List.cons_append, trim_of_blank_append hlead hc,
    trim_of_blank_append hlead hc]
  rfl

end Wayfinder.Text
