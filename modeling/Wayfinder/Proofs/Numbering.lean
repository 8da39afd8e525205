import Wayfinder.Document
import Mathlib.Data.List.Basic
import Mathlib.Data.List.Range

/-!
# Numbered lines

A document numbers its lines from zero in the order of the text.  A scanner sees
the numbers only, so every statement about the order of what it finds starts from
that fact.

* `Ascending` says that lines stand in the order of their numbers.  The lines of a
  document are ascending (`Document.ofText_ascending`), and each number is below the
  size of the document (`Document.index_lt_size`).
* `Document.codeLines` are the lines that are not comment lines.
* In ascending lines the lines up to one of them, and the lines from one of them on,
  are cut out by their numbers (`Ascending.filter_le`, `Ascending.filter_ge`).
-/

namespace Wayfinder

/-- The lines stand in the order of their numbers. -/
def Ascending (lines : List Line) : Prop :=
  lines.Pairwise fun line later => line.index < later.index

/-! ## The lines of a document -/

/-- Marked lines carry consecutive numbers. -/
theorem markLines_map_index (index : Nat) (inBlock : Bool) (texts : List (List Char)) :
    (markLines index inBlock texts).map Line.index = List.range' index texts.length := by
  induction texts generalizing index inBlock with
  | nil => rfl
  | cons chars more ih => simp [markLines, ih, List.range'_succ]

/-- Marked lines keep their characters. -/
theorem markLines_map_chars (index : Nat) (inBlock : Bool) (texts : List (List Char)) :
    (markLines index inBlock texts).map Line.chars = texts := by
  induction texts generalizing index inBlock with
  | nil => rfl
  | cons chars more ih => simp [markLines, ih, Line.chars]

namespace Document

theorem ofText_map_index (text : String) :
    (ofText text).lines.map Line.index = List.range (ofText text).size := by
  have hindex := markLines_map_index 0 false (Text.splitLines text.toList)
  have hlength := congrArg List.length hindex
  rw [List.length_map, List.length_range'] at hlength
  rw [size, ofText, hindex, hlength, List.range_eq_range']

/-- The lines of a document are numbered in the order of the text. -/
theorem ofText_ascending (text : String) : Ascending (ofText text).lines := by
  have hpairs := List.pairwise_lt_range (n := (ofText text).size)
  rw [← ofText_map_index, List.pairwise_map] at hpairs
  exact hpairs

/-- The number of a line is the number of lines before it. -/
theorem index_eq_length {text : String} {before more : List Line} {line : Line}
    (hlines : (ofText text).lines = before ++ line :: more) : line.index = before.length := by
  have hmap := congrArg (·[before.length]?) (ofText_map_index text)
  have hlength : before.length < (ofText text).size := by
    rw [size, hlines, List.length_append, List.length_cons]
    omega
  simpa [hlines, hlength] using hmap

/-- A line stands at its number. -/
theorem line?_index {text : String} {line : Line} (hline : line ∈ (ofText text).lines) :
    (ofText text).line? line.index = some line := by
  obtain ⟨before, more, hlines⟩ := List.append_of_mem hline
  rw [line?, index_eq_length hlines, hlines]
  simp

/-- The line at a position has that number. -/
theorem index_of_line? {text : String} {index : Nat} {line : Line}
    (h : (ofText text).line? index = some line) : line.index = index := by
  have hmap := congrArg (·[index]?) (ofText_map_index text)
  have hlines : (ofText text).lines[index]? = some line := h
  simp only [List.getElem?_map, hlines, Option.map_some] at hmap
  obtain ⟨_, heq⟩ := List.getElem?_eq_some_iff.1 hmap.symm
  simpa using heq.symm

/-- The lines of a document are the lines of its text. -/
theorem splitLines_of_line? {text : String} {index : Nat} {line : Line}
    (h : (ofText text).line? index = some line) :
    (Text.splitLines text.toList)[index]? = some line.chars := by
  rw [← markLines_map_chars 0 false (Text.splitLines text.toList), List.getElem?_map]
  exact congrArg (Option.map Line.chars) h

/-- The number of a line is below the size of the document. -/
theorem index_lt_size {text : String} {line : Line} (hline : line ∈ (ofText text).lines) :
    line.index < (ofText text).size := by
  have hmem : line.index ∈ (ofText text).lines.map Line.index := List.mem_map_of_mem hline
  rw [ofText_map_index] at hmem
  exact List.mem_range.1 hmem

/-- The lines of a document that are not comment lines. -/
def codeLines (document : Document) : List Line :=
  document.lines.filter fun line => !line.isComment

theorem mem_codeLines {document : Document} {line : Line} :
    line ∈ document.codeLines ↔ line ∈ document.lines ∧ line.isComment = false := by
  simp [codeLines]

end Document

/-! ## Cutting ascending lines by number -/

namespace Ascending

variable {before after lines : List Line} {line : Line}

theorem filter (hlines : Ascending lines) (keep : Line → Bool) :
    Ascending (lines.filter keep) :=
  List.Pairwise.filter keep hlines

theorem of_append_left (h : Ascending (before ++ after)) : Ascending before :=
  (List.pairwise_append.1 h).1

theorem of_append_right (h : Ascending (before ++ after)) : Ascending after :=
  (List.pairwise_append.1 h).2.1

theorem lt_of_append (h : Ascending (before ++ after)) {first second : Line}
    (hfirst : first ∈ before) (hsecond : second ∈ after) : first.index < second.index :=
  (List.pairwise_append.1 h).2.2 first hfirst second hsecond

/-- The first line has the least number. -/
theorem le_of_mem_cons (h : Ascending (line :: after)) {other : Line}
    (hother : other ∈ line :: after) : line.index ≤ other.index := by
  rcases List.mem_cons.1 hother with rfl | hmem
  · exact Nat.le_refl _
  · exact Nat.le_of_lt (List.rel_of_pairwise_cons h hmem)

/-- Two lines with one number are one line. -/
theorem eq_of_index_eq (h : Ascending lines) {first second : Line} (hfirst : first ∈ lines)
    (hsecond : second ∈ lines) (hindex : first.index = second.index) : first = second := by
  induction lines with
  | nil => cases hfirst
  | cons head rest ih =>
    have hhead : ∀ other ∈ rest, head.index < other.index :=
      fun other hother => List.rel_of_pairwise_cons h hother
    rcases List.mem_cons.1 hfirst with rfl | hfirstRest
    · rcases List.mem_cons.1 hsecond with rfl | hsecondRest
      · rfl
      · have := hhead second hsecondRest
        omega
    · rcases List.mem_cons.1 hsecond with rfl | hsecondRest
      · have := hhead first hfirstRest
        omega
      · exact ih h.of_cons hfirstRest hsecondRest

/-- The lines up to a line are those in front of it and the line itself. -/
theorem filter_le (h : Ascending (before ++ line :: after)) :
    (before ++ line :: after).filter (fun other => other.index ≤ line.index) =
      before ++ [line] := by
  have hbefore : before.filter (fun other => other.index ≤ line.index) = before := by
    refine List.filter_eq_self.2 fun other hother => ?_
    have := h.lt_of_append hother (List.mem_cons_self ..)
    simpa using Nat.le_of_lt this
  have hafter : after.filter (fun other => other.index ≤ line.index) = [] := by
    refine List.filter_eq_nil_iff.2 fun other hother => ?_
    have := List.rel_of_pairwise_cons h.of_append_right hother
    simpa using this
  rw [List.filter_append, List.filter_cons_of_pos (by simp), hbefore, hafter]

/-- The lines from a line on are the line itself and those behind it. -/
theorem filter_ge (h : Ascending (before ++ line :: after)) :
    (before ++ line :: after).filter (fun other => line.index ≤ other.index) =
      line :: after := by
  have hbefore : before.filter (fun other => line.index ≤ other.index) = [] := by
    refine List.filter_eq_nil_iff.2 fun other hother => ?_
    have := h.lt_of_append hother (List.mem_cons_self ..)
    simpa using this
  have hafter : (line :: after).filter (fun other => line.index ≤ other.index) =
      line :: after := by
    refine List.filter_eq_self.2 fun other hother => ?_
    simpa using h.of_append_right.le_of_mem_cons hother
  rw [List.filter_append, hbefore, hafter, List.nil_append]

/-- The last line has the greatest number. -/
theorem le_of_getLast? (h : Ascending lines) (hlast : lines.getLast? = some line) {other : Line}
    (hother : other ∈ lines) : other.index ≤ line.index := by
  obtain ⟨front, rfl⟩ := List.getLast?_eq_some_iff.1 hlast
  rcases List.mem_append.1 hother with hfront | hline
  · exact Nat.le_of_lt (h.lt_of_append hfront (List.mem_singleton_self line))
  · rw [List.mem_singleton.1 hline]

/-- The lines behind the last of some lines are those that follow them. -/
theorem filter_gt (h : Ascending (before ++ after)) (hlast : before.getLast? = some line) :
    (before ++ after).filter (fun other => line.index < other.index) = after := by
  have hbefore : before.filter (fun other => line.index < other.index) = [] := by
    refine List.filter_eq_nil_iff.2 fun other hother => ?_
    simpa using h.of_append_left.le_of_getLast? hlast hother
  have hafter : after.filter (fun other => line.index < other.index) = after := by
    refine List.filter_eq_self.2 fun other hother => ?_
    simpa using h.lt_of_append (List.mem_of_getLast? hlast) hother
  rw [List.filter_append, hbefore, hafter, List.nil_append]

/-- The lines behind a line, up to a number that parts them from the rest. -/
theorem filter_between {inner : List Line} {last : Nat}
    (h : Ascending (before ++ (line :: inner ++ after)))
    (hinner : ∀ other ∈ inner, other.index ≤ last)
    (hafter : ∀ other ∈ after, last < other.index) :
    (before ++ (line :: inner ++ after)).filter
        (fun other => line.index < other.index && other.index ≤ last) = inner := by
  have hbefore : before.filter
      (fun other => line.index < other.index && other.index ≤ last) = [] := by
    refine List.filter_eq_nil_iff.2 fun other hother => ?_
    have := h.lt_of_append hother (List.mem_cons_self ..)
    simp only [Bool.and_eq_true, decide_eq_true_eq]
    omega
  have hinside : inner.filter
      (fun other => line.index < other.index && other.index ≤ last) = inner := by
    refine List.filter_eq_self.2 fun other hother => ?_
    have := List.rel_of_pairwise_cons h.of_append_right (List.mem_append_left after hother)
    have := hinner other hother
    simp only [Bool.and_eq_true, decide_eq_true_eq]
    omega
  have hbehind : after.filter
      (fun other => line.index < other.index && other.index ≤ last) = [] := by
    refine List.filter_eq_nil_iff.2 fun other hother => ?_
    have := hafter other hother
    simp only [Bool.and_eq_true, decide_eq_true_eq]
    omega
  rw [List.filter_append, List.filter_append, List.filter_cons_of_neg (by simp), hbefore,
    hinside, hbehind, List.append_nil, List.nil_append]

end Ascending

end Wayfinder
