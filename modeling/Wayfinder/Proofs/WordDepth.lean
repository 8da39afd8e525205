import Wayfinder.Proofs.Probe

/-!
# Depths never leave the range of their words

A depth is held in a signed word of 32 bits, which wraps around at the ends of its range.  A
scan never gets that far: each character moves a depth by one, and each depth starts at zero
or one and sees each character of the document at most once.

* `Bracket.countChecked` counts brackets in numbers of any size, and refuses a count that leaves
  the range of a word.  `Depth.feedCompared` counts a text that way, character by character, and
  refuses also if the word of the depth does not hold the count in the end.
* It is `Depth.feed` where a depth and the characters together stay inside the range
  (`Depth.feedCompared_eq`).
* `Document.outline_inWords`: the scan of a text of fewer than `2 ^ 31 - 1` characters never has
  to refuse.
-/

namespace Wayfinder

/-- A signed word of 32 bits can hold the number. -/
def InWord (n : Int) : Prop :=
  Int32.minValue.toInt ≤ n ∧ n ≤ Int32.maxValue.toInt

instance (n : Int) : Decidable (InWord n) :=
  inferInstanceAs (Decidable (_ ∧ _))

/-- A number that is close enough to zero fits into a word. -/
theorem inWord_of_natAbs_lt {n : Int} (h : n.natAbs < Nat.pow 2 31) : InWord n := by
  have hpow : Nat.pow 2 31 = 2147483648 := rfl
  have hmin : Int32.minValue.toInt = -2147483648 := rfl
  have hmax : Int32.maxValue.toInt = 2147483647 := rfl
  rw [InWord, hmin, hmax]
  omega

namespace Bracket

/-- The count after one more character, unless no word can hold it. -/
def countChecked (bracket : Bracket) (count : Int) (c : Char) : Option Int :=
  if InWord (bracket.countStep count c) then some (bracket.countStep count c) else none

/-- A text that does not lead out of the range of a word passes every check on the way. -/
theorem foldlM_countChecked (bracket : Bracket) {count : Int} {text : List Char}
    (h : count.natAbs + text.length < Nat.pow 2 31) :
    text.foldlM bracket.countChecked count = some (text.foldl bracket.countStep count) := by
  induction text generalizing count with
  | nil => rfl
  | cons c rest ih =>
    have hstep := bracket.natAbs_countStep_le count c
    rw [List.length_cons] at h
    have hword : InWord (bracket.countStep count c) := inWord_of_natAbs_lt (by omega)
    rw [List.foldlM_cons, countChecked, if_pos hword]
    exact ih (by omega)

theorem natAbs_foldl_countStep_le (bracket : Bracket) (count : Int) (text : List Char) :
    (text.foldl bracket.countStep count).natAbs ≤ count.natAbs + text.length := by
  induction text generalizing count with
  | nil => exact Nat.le_refl _
  | cons c rest ih =>
    have hstep := bracket.natAbs_countStep_le count c
    have hrest := ih (bracket.countStep count c)
    rw [List.foldl_cons, List.length_cons]
    omega

end Bracket

namespace Depth

/-- The depth after a text, unless its count leaves the range of a word after one of the
characters, or the word does not hold the count in the end. -/
def feedCompared (depth : Depth) (text : List Char) : Option Depth := do
  let count ← text.foldlM depth.bracket.countChecked depth.level.toInt
  if (depth.feed text).level.toInt = count then return depth.feed text else none

theorem feedCompared_eq {depth : Depth} {reach : Nat} {text : List Char} (h : depth.Within reach)
    (hlimit : reach + text.length ≤ Nat.pow 2 31 - 1) :
    depth.feedCompared text = some (depth.feed text) := by
  have hpow : Nat.pow 2 31 = 2147483648 := rfl
  unfold Depth.Within at h
  have hcount := depth.bracket.natAbs_foldl_countStep_le depth.level.toInt text
  have hafter := depth.bracket.after_ofInt depth.level.toInt text
  rw [Int32.ofInt_toInt] at hafter
  have hheld : (depth.feed text).level.toInt =
      text.foldl depth.bracket.countStep depth.level.toInt := by
    rw [feed, hafter]
    exact Int32.toInt_ofInt_of_le (by omega) (by omega)
  rw [feedCompared, depth.bracket.foldlM_countChecked (by omega), Option.bind_eq_bind,
    Option.bind_some, if_pos hheld]
  rfl

/-- At the end of the range the word parts from the count. -/
example : feed ⟨.parens, 2147483647⟩ ['('] = ⟨.parens, -2147483648⟩ ∧
    feedCompared ⟨.parens, 2147483647⟩ ['('] = none := by decide

end Depth

namespace Probe

/-- A scan that counts every text also in numbers of any size, from the number that the word of a
depth stands for, and refuses as soon as a count leaves the range of a word or a word does not
hold the count. -/
def comparedWords : Probe Option :=
  { willing with feed := Depth.feedCompared }

theorem comparedWords_faithful : comparedWords.Faithful (Nat.pow 2 31 - 1) where
  feed_eq _ hwithin hlimit := Depth.feedCompared_eq hwithin hlimit
  report_eq := (willing_faithful 0).report_eq
  cut_eq := (willing_faithful 0).cut_eq

end Probe

/-- No depth overflows.  In a text of fewer than `2 ^ 31 - 1` characters, whatever the lookahead,
the number that every depth of both scans counts stays inside the range of a signed word of 32
bits after every single character, and the word holds that number wherever it is tested: the scan
that refuses otherwise does not refuse, and finds all that is found. -/
theorem Document.outline_inWords {text : String} (h : text.length < Nat.pow 2 31 - 1)
    (lookahead : Nat) :
    Probe.comparedWords.outline (ofText text) lookahead =
      some ((ofText text).outline lookahead) :=
  Probe.comparedWords_faithful.outline_eq lookahead h

/-- The round brackets of the declaration close too often, its curly brackets and those of the
interface stay open, and the text ends inside a result list. -/
theorem Document.outline_inWords_unbalanced :
    let text := "func (t T) M(a int)))) \x7b\ntype A interface \x7b\x7b\n\tF()\n\t(int,\n"
    text.length < Nat.pow 2 31 - 1 ∧
      Probe.comparedWords.outline (ofText text) 3 = some ((ofText text).outline 3) := by
  intro text
  have hshort : text.length < Nat.pow 2 31 - 1 := by decide
  exact ⟨hshort, Document.outline_inWords hshort 3⟩

end Wayfinder
