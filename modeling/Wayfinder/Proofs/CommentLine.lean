import Wayfinder.Proofs.Interface.Segmentation
import Wayfinder.Proofs.Renumbering

/-!
# Comment lines are invisible

A comment line that is put into a document, and that leaves open or closed what was open
or closed before it, changes nothing but the numbers of the lines behind it.

* `behindInserted` is the new number of a line.
* The lines of the longer document are those of the shorter one, renumbered, with the
  comment line between them (`Document.lines_insert`).
* Both scanners pass over the comment line.  What they say about an unclosed declaration
  depends on the last line of the document, which is why a comment line behind all lines
  is a different matter.
-/

namespace Wayfinder

/-- The number of a line after a line has been inserted. -/
def behindInserted (inserted index : Nat) : Nat :=
  if index < inserted then index else index + 1

theorem strictMono_behindInserted (inserted : Nat) : StrictMono (behindInserted inserted) := by
  intro first second hlt
  simp only [behindInserted]
  split_ifs <;> omega

/-! ## Both scanners pass over a comment line -/

namespace ReceiverMethod

variable {before after : List Line} {comment : Line}

theorem endFrom_insert (hcomment : comment.isComment = true) (hafter : after ≠ [])
    (parens braces : Depth) (last : Nat) :
    endFrom parens braces last (before ++ comment :: after) =
      endFrom parens braces last (before ++ after) := by
  induction before generalizing parens braces last with
  | nil =>
    -- the number kept for the end of the document is replaced by the next line's
    obtain ⟨line, more, rfl⟩ := List.exists_cons_of_ne_nil hafter
    simp only [List.nil_append, endFrom_cons, hcomment, if_true]
  | cons line before ih => simp only [List.cons_append, endFrom_cons, ih]

theorem among_insert (hcomment : comment.isComment = true) (hafter : after ≠ []) :
    among (before ++ comment :: after) = among (before ++ after) := by
  induction before with
  | nil => simp only [List.nil_append, among, hcomment, if_true, Option.toList_none]
  | cons line before ih =>
    have hline : ofLine? line (before ++ comment :: after) = ofLine? line (before ++ after) := by
      refine ofLine?_congr fun reading _ => ?_
      simp only [endLineOf_eq_ite, endFrom_insert hcomment hafter]
    rw [List.cons_append, List.cons_append, among, among, ih, hline]

end ReceiverMethod

theorem Scanner.sweep_insert {comment : Line} (hcomment : comment.isComment = true)
    (lookahead : Nat) (scanner : Scanner) (before after : List Line) :
    sweep (step lookahead) scanner (before ++ comment :: after) =
      sweep (step lookahead) scanner (before ++ after) := by
  rw [sweep_append, sweep_append, sweep_cons, step_eq, if_pos hcomment]

/-! ## Documents -/

namespace Document

/-- The lines of a text, cut in two. -/
theorem lines_of_splitLines {text : String} {front back : List (List Char)}
    (htext : Text.splitLines text.toList = front ++ back) :
    (ofText text).lines =
      markLines 0 false front ++ markLines front.length (blockBehind false front) back := by
  rw [ofText, htext, markLines_append, Nat.zero_add]

/-- The lines of a text with a line put into it that leaves block comments as they are. -/
theorem lines_insert {edited : String} {front back : List (List Char)} {comment : List Char}
    (hedited : Text.splitLines edited.toList = front ++ comment :: back) {verdict : Verdict}
    (hverdict : classify (blockBehind false front) comment = verdict)
    (hblock : verdict.inBlock = blockBehind false front) :
    (ofText edited).lines =
      (markLines 0 false front).map (Line.renumber (behindInserted front.length)) ++
        { index := front.length, text := String.ofList comment, isComment := verdict.isComment } ::
        (markLines front.length (blockBehind false front) back).map
          (Line.renumber (behindInserted front.length)) := by
  have hbefore : (markLines 0 false front).map (Line.renumber (behindInserted front.length)) =
      markLines 0 false front := by
    refine markLines_renumber false front fun offset hoffset => ?_
    simp only [behindInserted]
    split_ifs <;> omega
  have hafter : (markLines front.length (blockBehind false front) back).map
        (Line.renumber (behindInserted front.length)) =
      markLines (front.length + 1) (blockBehind false front) back := by
    refine markLines_renumber _ back fun offset _ => ?_
    simp only [behindInserted]
    split_ifs <;> omega
  rw [lines_of_splitLines hedited, hbefore, hafter, markLines, hverdict, hblock]

/-- Interfaces do not depend on a comment line. -/
theorem interfaces_insert {document edited : Document} {before after : List Line} {comment : Line}
    {f : Nat → Nat} (hf : StrictMono f) (hcomment : comment.isComment = true)
    (hlines : document.lines = before ++ after)
    (hedited : edited.lines =
      before.map (Line.renumber f) ++ comment :: after.map (Line.renumber f))
    (hlast : edited.size - 1 = f (document.size - 1)) (lookahead : Nat) :
    edited.interfaces lookahead = (document.interfaces lookahead).map (Interface.renumber f) := by
  have hinitial : Scanner.initial = Scanner.initial.renumber f := rfl
  rw [interfaces, interfaces, hedited, Scanner.sweep_insert hcomment, ← List.map_append, ← hlines,
    hinitial, Scanner.sweep_renumber hf, ← hinitial]
  exact Scanner.finish_renumber hf _ fun _ => hlast

/-- Methods with a receiver do not depend on a comment line. -/
theorem receiverMethods_insert {text edited : String} {before after : List Line} {comment : Line}
    {f : Nat → Nat} (hcomment : comment.isComment = true) (hafter : after ≠ [])
    (hlines : (ofText text).lines = before ++ after)
    (hedited : (ofText edited).lines =
      before.map (Line.renumber f) ++ comment :: after.map (Line.renumber f)) :
    (ofText edited).receiverMethods =
      (ofText text).receiverMethods.map (ReceiverMethod.renumber f) := by
  have hafter' : after.map (Line.renumber f) ≠ [] := by simpa using hafter
  rw [receiverMethods_eq, receiverMethods_eq, hedited, ReceiverMethod.among_insert hcomment hafter',
    ← List.map_append, ← hlines, ReceiverMethod.among_renumber]

/-- Whether a block comment is open before a line of a text. -/
def inBlockBefore (text : String) (index : Nat) : Bool :=
  blockBehind false ((Text.splitLines text.toList).take index)

/-- A comment line that leaves block comments as they are changes nothing but the numbers of the
lines behind it, whatever the lookahead, and also where a declaration is not closed. -/
theorem outline_insertComment {text edited : String} {index : Nat} {comment : List Char}
    (hindex : index < (ofText text).size)
    (hedited : Text.splitLines edited.toList =
      (Text.splitLines text.toList).take index ++
        comment :: (Text.splitLines text.toList).drop index)
    (hcomment : classify (inBlockBefore text index) comment =
      { isComment := true, inBlock := inBlockBefore text index }) (lookahead : Nat) :
    (ofText edited).outline lookahead =
        ((ofText text).outline lookahead).renumber (behindInserted index) ∧
      (ofText edited).hints lookahead =
        ((ofText text).hints lookahead).map (Hint.renumber (behindInserted index)) := by
  rw [size_ofText] at hindex
  have hlength : ((Text.splitLines text.toList).take index).length = index := by
    rw [List.length_take]
    omega
  have htext := lines_of_splitLines (List.take_append_drop index (Text.splitLines text.toList)).symm
  have hlines := lines_insert hedited hcomment rfl
  rw [hlength] at htext hlines
  have hafter : markLines index (inBlockBefore text index)
      ((Text.splitLines text.toList).drop index) ≠ [] := by
    refine List.ne_nil_of_length_pos ?_
    rw [length_markLines, List.length_drop]
    omega
  have hlast : (ofText edited).size - 1 = behindInserted index ((ofText text).size - 1) := by
    have hsize : (ofText edited).size = (ofText text).size + 1 := by
      rw [size_ofText, size_ofText, hedited, List.length_append, List.length_cons, List.length_drop,
        hlength]
      omega
    rw [behindInserted, hsize, size_ofText]
    split_ifs <;> omega
  have houtline : (ofText edited).outline lookahead =
      ((ofText text).outline lookahead).renumber (behindInserted index) := by
    rw [outline, outline,
      interfaces_insert (strictMono_behindInserted index) rfl htext hlines hlast,
      receiverMethods_insert rfl hafter htext hlines]
    rfl
  refine ⟨houtline, ?_⟩
  rw [hints, hints, houtline, Outline.hints_renumber]

/-- An interface and a method with a receiver, neither of them closed, and a block comment inside
the parameters of a signature. -/
def unclosedText : String :=
  "type R interface \x7b\n\tRead(\n/*\n*/\n\tn int)\nfunc (t *T) Close() \x7b\n"

/-- The same text with one more line in the block comment. -/
def longerCommentText : String :=
  "type R interface \x7b\n\tRead(\n/*\n)) \x7d\n*/\n\tn int)\nfunc (t *T) Close() \x7b\n"

theorem outline_insertComment_unclosed :
    3 < (ofText unclosedText).size ∧
      Text.splitLines longerCommentText.toList =
        (Text.splitLines unclosedText.toList).take 3 ++
          ")) \x7d".toList :: (Text.splitLines unclosedText.toList).drop 3 ∧
      inBlockBefore unclosedText 3 = true ∧
      classify true ")) \x7d".toList = { isComment := true, inBlock := true } ∧
      (ofText longerCommentText).outline 2 =
        ((ofText unclosedText).outline 2).renumber (behindInserted 3) ∧
      (ofText longerCommentText).hints 2 =
        ((ofText unclosedText).hints 2).map (Hint.renumber (behindInserted 3)) := by
  have hindex : 3 < (ofText unclosedText).size := by decide +kernel
  have hedited : Text.splitLines longerCommentText.toList =
      (Text.splitLines unclosedText.toList).take 3 ++
        ")) \x7d".toList :: (Text.splitLines unclosedText.toList).drop 3 := by decide +kernel
  have hblock : inBlockBefore unclosedText 3 = true := by decide +kernel
  have hcomment : classify true ")) \x7d".toList = { isComment := true, inBlock := true } := by
    decide +kernel
  exact ⟨hindex, hedited, hblock, hcomment,
    outline_insertComment hindex hedited (by rw [hblock, hcomment]) 2⟩

end Document

end Wayfinder
