import Wayfinder.Bracket
import Wayfinder.Proofs.Lines
import Wayfinder.Proofs.Numbering

/-!
# Bracket counts over lines

A scanner carries the depth of a pair of brackets from line to line, in a word of 32
bits.  This module relates that running depth to plain counts, which know nothing of a
scanner.

* `Bracket.net` is how many more brackets a text opens than it closes, and
  `Bracket.netOver` the same over lines.  `Depth.ofCount` is the word that stands for a
  count, and feeding a text adds its net count (`Depth.feed_parens`,
  `Depth.feed_braces`), whether or not the word wraps around.
* `Counting` says how a count is held: as a number, or as the word that stands for it.
  The two agree on a count that is small enough (`Counting.isClosed_eq`), and a count
  over lines is no larger than the number of their characters
  (`Bracket.natAbs_netOver_le`).  `Counting.Fits` puts this together for a text.
* `Bracket.firstClosed?` is the first of some lines at which the brackets opened
  since the first of them are closed, by the net count over the lines up to it.
* `Bracket.StaysOpen` and `Bracket.ClosesOn` describe the run of a depth along lines:
  it stays open, or it stays open up to a last line, on which it is closed.
  Every list of lines begins with a run that closes or is one that stays open
  (`Bracket.staysOpen_or_closesOn`), and both decide `firstClosed?`.
-/

namespace Wayfinder

/-- How a net count of brackets is held. -/
inductive Counting where
  /-- As a number of any size. -/
  | exact
  /-- In a signed word of 32 bits. -/
  | word
deriving DecidableEq

/-- Whether brackets with the given net count are taken to be closed. -/
def Counting.isClosed : Counting → Int → Bool
  | .exact, count => count ≤ 0
  | .word, count => Int32.ofInt count ≤ 0

/-- A word holds a count that is close enough to zero. -/
theorem Counting.isClosed_eq {count : Int} (h : count.natAbs < Nat.pow 2 31)
    (counting : Counting) : counting.isClosed count = word.isClosed count := by
  cases counting with
  | word => rfl
  | exact =>
    have hpow : Nat.pow 2 31 = 2147483648 := rfl
    have hcount : (Int32.ofInt count).toInt = count :=
      Int32.toInt_ofInt_of_le (by omega) (by omega)
    have hiff : Int32.ofInt count ≤ 0 ↔ count ≤ 0 := by
      rw [Int32.le_iff_toInt_le, hcount]
      rfl
    exact decide_eq_decide.2 hiff.symm

namespace Depth

/-- The depth that stands for a count. -/
def ofCount (bracket : Bracket) (count : Int) : Depth :=
  ⟨bracket, Int32.ofInt count⟩

/-- Every depth stands for a count. -/
theorem eq_ofCount (depth : Depth) : depth = ofCount depth.bracket depth.level.toInt := by
  rw [ofCount, Int32.ofInt_toInt]

theorem isBalanced_ofCount (bracket : Bracket) (count : Int) :
    (ofCount bracket count).isBalanced = Counting.word.isClosed count := rfl

/-- The depth of round brackets over a text. -/
def ofParens (text : List Char) : Depth :=
  (ofCount .parens 0).feed text

/-- The depth of curly brackets over a text. -/
def ofBraces (text : List Char) : Depth :=
  (ofCount .braces 0).feed text

end Depth

namespace Bracket

/-- The count after one more character, which may be any number. -/
def countStep (bracket : Bracket) (count : Int) (c : Char) : Int :=
  if c = bracket.opening then count + 1
  else if c = bracket.closing then count - 1
  else count

/-- How many more brackets a text opens than it closes. -/
def net (bracket : Bracket) (text : List Char) : Int :=
  (text.count bracket.opening : Int) - (text.count bracket.closing : Int)

/-- How many more brackets some lines open than they close. -/
def netOver (bracket : Bracket) (lines : List Line) : Int :=
  lines.foldr (fun line total => bracket.net line.chars + total) 0

/-- The first of some lines at which the brackets opened since the first of them are closed. -/
def firstClosed? (bracket : Bracket) (counting : Counting) (lines : List Line) : Option Line :=
  lines.find? fun line =>
    counting.isClosed (bracket.netOver (lines.filter fun other => other.index ≤ line.index))

/-! ## Running depth and net count -/

@[simp] theorem netOver_nil (bracket : Bracket) : bracket.netOver [] = 0 := rfl

@[simp] theorem netOver_cons (bracket : Bracket) (line : Line) (lines : List Line) :
    bracket.netOver (line :: lines) = bracket.net line.chars + bracket.netOver lines := rfl

@[simp] theorem netOver_append (bracket : Bracket) (lines more : List Line) :
    bracket.netOver (lines ++ more) = bracket.netOver lines + bracket.netOver more := by
  induction lines with
  | nil => simp
  | cons line rest ih => simp [ih, Int.add_assoc]

/-- The word of a depth follows the number that it stands for, also where it wraps around. -/
theorem step_ofInt (bracket : Bracket) (count : Int) (c : Char) :
    bracket.step (Int32.ofInt count) c = Int32.ofInt (bracket.countStep count c) := by
  unfold step countStep
  split
  · exact (Int32.ofInt_add count 1).symm
  · split
    · exact (Int32.ofInt_sub count 1).symm
    · rfl

theorem after_ofInt (bracket : Bracket) (count : Int) (text : List Char) :
    bracket.after (Int32.ofInt count) text = Int32.ofInt (text.foldl bracket.countStep count) := by
  induction text generalizing count with
  | nil => rfl
  | cons c rest ih =>
    have hafter : bracket.after (Int32.ofInt count) (c :: rest) =
        bracket.after (bracket.step (Int32.ofInt count) c) rest := rfl
    rw [hafter, step_ofInt, ih, List.foldl_cons]

/-- The characters of a text move a count by the net count of the text, if the two brackets
differ. -/
theorem foldl_countStep {bracket : Bracket} (hne : bracket.opening ≠ bracket.closing)
    (count : Int) (text : List Char) :
    text.foldl bracket.countStep count = count + bracket.net text := by
  induction text generalizing count with
  | nil => simp [net]
  | cons c rest ih =>
    rw [List.foldl_cons, ih, countStep]
    split_ifs with hopening hclosing
    · subst hopening
      simp only [net, List.count_cons_self, List.count_cons_of_ne hne]
      omega
    · subst hclosing
      simp only [net, List.count_cons_self, List.count_cons_of_ne hopening]
      omega
    · simp [net, hopening, hclosing]

theorem after_eq_add_net {bracket : Bracket} (hne : bracket.opening ≠ bracket.closing)
    (count : Int) (text : List Char) :
    bracket.after (Int32.ofInt count) text = Int32.ofInt (count + bracket.net text) := by
  rw [after_ofInt, foldl_countStep hne]

theorem braces_ne : braces.opening ≠ braces.closing := by decide

theorem parens_ne : parens.opening ≠ parens.closing := by decide

end Bracket

namespace Depth

/-- Feeding a text adds its net count. -/
theorem feed_parens (count : Int) (text : List Char) :
    (ofCount .parens count).feed text = ofCount .parens (count + Bracket.parens.net text) :=
  congrArg (Depth.mk .parens) (Bracket.after_eq_add_net Bracket.parens_ne count text)

theorem feed_braces (count : Int) (text : List Char) :
    (ofCount .braces count).feed text = ofCount .braces (count + Bracket.braces.net text) :=
  congrArg (Depth.mk .braces) (Bracket.after_eq_add_net Bracket.braces_ne count text)

end Depth

/-! ## Counts and numbers of characters -/

/-- The number of characters of some lines. -/
def charCount (lines : List Line) : Nat :=
  lines.foldr (fun line total => line.chars.length + total) 0

@[simp] theorem charCount_nil : charCount [] = 0 := rfl

@[simp] theorem charCount_cons (line : Line) (lines : List Line) :
    charCount (line :: lines) = line.chars.length + charCount lines := rfl

@[simp] theorem charCount_append (lines more : List Line) :
    charCount (lines ++ more) = charCount lines + charCount more := by
  induction lines with
  | nil => simp
  | cons line rest ih =>
    rw [List.cons_append, charCount_cons, charCount_cons, ih]
    omega

theorem charCount_le_of_sublist {lines more : List Line} (h : lines.Sublist more) :
    charCount lines ≤ charCount more := by
  induction h with
  | slnil => exact Nat.le_refl _
  | cons line _ ih =>
    rw [charCount_cons]
    omega
  | cons_cons line _ ih =>
    rw [charCount_cons, charCount_cons]
    omega

/-- The lines of a document have no more characters than its text. -/
theorem Document.charCount_le (text : String) : charCount (ofText text).lines ≤ text.length := by
  have hlines : ∀ (chars : List Char) (index : Nat) (inBlock : Bool),
      charCount (markLines index inBlock (Text.splitLines chars)) ≤ chars.length := by
    intro chars
    induction chars using Text.byLines with
    | nil => simp [Text.splitLines, markLines]
    | line chars line ending rest hfirst ih =>
      intro index inBlock
      have hrest := ih (index + 1) (classify inBlock line).inBlock
      rw [hfirst.splitLines_eq, markLines, charCount_cons, Line.chars, String.toList_ofList]
      rw [hfirst.text_eq, List.length_append, List.length_append]
      omega
  rw [← String.length_toList]
  exact hlines text.toList 0 false

namespace Bracket

/-- A net count is no larger than the number of characters. -/
theorem natAbs_net_le (bracket : Bracket) (text : List Char) :
    (bracket.net text).natAbs ≤ text.length := by
  have hopening := List.count_le_length (a := bracket.opening) (l := text)
  have hclosing := List.count_le_length (a := bracket.closing) (l := text)
  rw [net]
  omega

theorem natAbs_netOver_le (bracket : Bracket) (lines : List Line) :
    (bracket.netOver lines).natAbs ≤ charCount lines := by
  induction lines with
  | nil => exact Nat.le_refl 0
  | cons line more ih =>
    have hline := bracket.natAbs_net_le line.chars
    rw [netOver_cons, charCount_cons]
    omega

end Bracket

/-- A way to count is good enough for a text: no count over lines of the text reaches the end of
the range of a word, or counts are held in words. -/
def Counting.Fits (counting : Counting) (text : String) : Prop :=
  counting = .word ∨ text.length < Nat.pow 2 31

section Fits

variable {counting : Counting} {text : String} {lines : List Line}

/-- Over lines of the text, all ways to count that are good enough are the same. -/
theorem Counting.Fits.isClosed_netOver (h : counting.Fits text)
    (hlines : lines.Sublist (Document.ofText text).lines) (bracket : Bracket) :
    counting.isClosed (bracket.netOver lines) = word.isClosed (bracket.netOver lines) := by
  rcases h with rfl | hlength
  · rfl
  · have hnet := bracket.natAbs_netOver_le lines
    have hcount := charCount_le_of_sublist hlines
    have htext := Document.charCount_le text
    exact counting.isClosed_eq (by omega)

theorem Counting.Fits.firstClosed?_eq (h : counting.Fits text)
    (hlines : lines.Sublist (Document.ofText text).lines) (bracket : Bracket) :
    bracket.firstClosed? counting lines = bracket.firstClosed? .word lines := by
  have htest : ∀ line : Line, counting.isClosed
        (bracket.netOver (lines.filter fun other => other.index ≤ line.index)) =
      Counting.word.isClosed
        (bracket.netOver (lines.filter fun other => other.index ≤ line.index)) :=
    fun line => h.isClosed_netOver (List.filter_sublist.trans hlines) bracket
  rw [Bracket.firstClosed?, Bracket.firstClosed?, funext htest]

end Fits

/-! ## Runs of a depth along lines -/

namespace Bracket

/-- A depth that stands for `count` before some lines is open after each of them. -/
def StaysOpen (bracket : Bracket) : Int → List Line → Prop
  | _, [] => True
  | count, line :: more =>
      Counting.word.isClosed (count + bracket.net line.chars) = false ∧
        bracket.StaysOpen (count + bracket.net line.chars) more

/-- A depth that stands for `count` before some lines is closed after the last of them, for the
first time. -/
def ClosesOn (bracket : Bracket) (count : Int) (lines : List Line) (last : Line) : Prop :=
  ∃ before, lines = before ++ [last] ∧ bracket.StaysOpen count before ∧
    Counting.word.isClosed (count + bracket.netOver lines) = true

variable {bracket : Bracket} {count : Int} {lines before after : List Line} {line last : Line}

theorem ClosesOn.ne_nil (h : bracket.ClosesOn count lines last) : lines ≠ [] := by
  obtain ⟨before, rfl, _⟩ := h
  simp

theorem ClosesOn.getLast? (h : bracket.ClosesOn count lines last) :
    lines.getLast? = some last := by
  obtain ⟨before, rfl, _⟩ := h
  simp

/-- A run that stays open is open at each of its lines, by the net count up to there. -/
theorem StaysOpen.isClosed_eq_false (h : bracket.StaysOpen count (before ++ line :: after)) :
    Counting.word.isClosed (count + bracket.netOver (before ++ [line])) = false := by
  induction before generalizing count with
  | nil => simpa using h.1
  | cons head rest ih =>
    have hrest := ih h.2
    rwa [Int.add_assoc] at hrest

/-- A run that stays open is open in the end. -/
theorem StaysOpen.isClosed_netOver (h : bracket.StaysOpen count lines) (hne : lines ≠ []) :
    Counting.word.isClosed (count + bracket.netOver lines) = false := by
  obtain ⟨front, last, rfl⟩ := (List.eq_nil_or_concat' lines).resolve_left hne
  exact h.isClosed_eq_false

/-- Lines close on the first of them, or behind it. -/
theorem closesOn_cons_iff :
    bracket.ClosesOn count (line :: lines) last ↔
      Counting.word.isClosed (count + bracket.net line.chars) = true ∧ lines = [] ∧ line = last ∨
        Counting.word.isClosed (count + bracket.net line.chars) = false ∧
          bracket.ClosesOn (count + bracket.net line.chars) lines last := by
  constructor
  · rintro ⟨before, hlines, hstays, hclosed⟩
    cases before with
    | nil =>
      obtain ⟨rfl, rfl⟩ := List.cons.inj hlines
      exact Or.inl ⟨by simpa using hclosed, rfl, rfl⟩
    | cons head before =>
      obtain ⟨rfl, rfl⟩ := List.cons.inj hlines
      rw [netOver_cons, ← Int.add_assoc] at hclosed
      exact Or.inr ⟨hstays.1, before, rfl, hstays.2, hclosed⟩
  · rintro (⟨hclosed, rfl, rfl⟩ | ⟨hopen, before, rfl, hstays, hclosed⟩)
    · exact ⟨[], rfl, trivial, by simpa using hclosed⟩
    · refine ⟨line :: before, rfl, ⟨hopen, hstays⟩, ?_⟩
      rwa [netOver_cons, ← Int.add_assoc]

/-- Lines stay open, or they begin with lines that close. -/
theorem staysOpen_or_closesOn (bracket : Bracket) (count : Int) (line : Line)
    (lines : List Line) :
    bracket.StaysOpen count (line :: lines) ∨
      ∃ block rest last, lines = block ++ rest ∧ bracket.ClosesOn count (line :: block) last := by
  induction lines generalizing count line with
  | nil =>
    cases hclosed : Counting.word.isClosed (count + bracket.net line.chars) with
    | false => exact Or.inl ⟨hclosed, trivial⟩
    | true => exact Or.inr ⟨[], [], line, rfl, closesOn_cons_iff.2 (Or.inl ⟨hclosed, rfl, rfl⟩)⟩
  | cons next more ih =>
    cases hclosed : Counting.word.isClosed (count + bracket.net line.chars) with
    | false =>
      rcases ih (count + bracket.net line.chars) next with
        hstays | ⟨block, rest, last, rfl, hcloses⟩
      · exact Or.inl ⟨hclosed, hstays⟩
      · refine Or.inr ⟨next :: block, rest, last, rfl, ?_⟩
        exact closesOn_cons_iff.2 (Or.inr ⟨hclosed, hcloses⟩)
    | true =>
      refine Or.inr ⟨[], next :: more, line, rfl, ?_⟩
      exact closesOn_cons_iff.2 (Or.inl ⟨hclosed, rfl, rfl⟩)

/-! ## The first closed line -/

theorem firstClosed?_of_staysOpen (hlines : Ascending lines) (h : bracket.StaysOpen 0 lines) :
    bracket.firstClosed? .word lines = none := by
  refine List.find?_eq_none.2 fun line hline => ?_
  obtain ⟨before, after, rfl⟩ := List.append_of_mem hline
  have hopen := h.isClosed_eq_false
  rw [Int.zero_add] at hopen
  rw [hlines.filter_le, hopen]
  exact Bool.false_ne_true

theorem firstClosed?_of_closesOn (hlines : Ascending (lines ++ after))
    (h : bracket.ClosesOn 0 lines last) :
    bracket.firstClosed? .word (lines ++ after) = some last := by
  obtain ⟨before, rfl, hstays, hclosed⟩ := h
  rw [Int.zero_add] at hclosed
  rw [List.append_assoc, List.singleton_append] at hlines ⊢
  refine List.find?_eq_some_iff_append.2 ⟨?_, before, after, rfl, fun line hline => ?_⟩
  · rwa [hlines.filter_le]
  · obtain ⟨front, back, rfl⟩ := List.append_of_mem hline
    have hopen := hstays.isClosed_eq_false
    rw [Int.zero_add] at hopen
    rw [List.append_assoc, List.cons_append] at hlines ⊢
    rw [hlines.filter_le, hopen]
    rfl

end Bracket

end Wayfinder
