import Wayfinder.Proofs.Concatenation
import Mathlib.Order.Bounds.Basic

/-!
# The methods with a receiver of a document

A document declares a method with a receiver on each of its code lines that holds the
heading of one, whatever surrounds that line.  This module says which declarations a
document has, and where each of them ends, without a scanner.

* `Document.closings` are the code lines at which everything opened since a line is closed,
  by the net counts of both kinds of brackets over whole lines.
* `Document.EndsOn` is the rule for the last line of a declaration: the least of those
  lines, or the last line of the document if there is none.
* `ReceiverMethod.DeclaredOn` takes a declaration apart into what its heading says and where
  it ends.
* `Document.receiverMethods_declared` says that the headings and the declarations of a text
  correspond one to one, in source order.
-/

namespace Wayfinder

/-- Whether a line holds the heading of a method with a receiver. -/
def Line.startsReceiver (line : Line) : Bool :=
  (Heading.receiver.read? line.chars).isSome

namespace Document

/-! ## Where a declaration ends -/

/-- The code lines from a line on at which the round and the curly brackets opened since that line
are closed. -/
def closings (document : Document) (counting : Counting) (first : Nat) : Set Nat :=
  { index | (∃ line ∈ document.codeLines, line.index = index) ∧ first ≤ index ∧
      counting.isClosed (Bracket.parens.netOver (document.codeLinesBetween first index)) = true ∧
      counting.isClosed (Bracket.braces.netOver (document.codeLinesBetween first index)) = true }

/-- What starts on one line ends on another: the first at which all brackets are closed, or the
last line of the document if they never are. -/
def EndsOn (document : Document) (counting : Counting) (first last : Nat) : Prop :=
  IsLeast (document.closings counting first) last ∨
    document.closings counting first = ∅ ∧ last + 1 = document.size

variable {counting : Counting} {text : String} {first : Nat} {line last : Line}
  {before following : List Line}

theorem mem_codeLinesFrom {document : Document} :
    line ∈ document.codeLinesFrom first ↔ line ∈ document.codeLines ∧ first ≤ line.index := by
  simp [codeLinesFrom]

/-- The code lines at which the scanner finds everything closed. -/
theorem mem_closings_iff {document : Document} {index : Nat} :
    index ∈ document.closings counting first ↔
      ∃ line ∈ document.codeLinesFrom first, line.index = index ∧
        ReceiverMethod.isClosedAt counting (document.codeLinesFrom first) line = true := by
  constructor
  · rintro ⟨⟨line, hline, rfl⟩, hle, hparens, hbraces⟩
    refine ⟨line, mem_codeLinesFrom.2 ⟨hline, hle⟩, rfl, ?_⟩
    exact Bool.and_eq_true_iff.2 ⟨hparens, hbraces⟩
  · rintro ⟨line, hline, rfl, hclosed⟩
    obtain ⟨hcode, hle⟩ := mem_codeLinesFrom.1 hline
    obtain ⟨hparens, hbraces⟩ := Bool.and_eq_true_iff.1 hclosed
    exact ⟨⟨line, hcode, rfl⟩, hle, hparens, hbraces⟩

/-- All ways to count that are good enough for a text find the same lines closed. -/
theorem closings_of_fits (hfits : counting.Fits text) (first : Nat) :
    (ofText text).closings counting first = (ofText text).closings .word first := by
  ext index
  rw [mem_closings_iff, mem_closings_iff]
  simp only [ReceiverMethod.isClosedAt_of_fits hfits (codeLinesFrom_sublist _ _)]

/-- The first closed line is the least of the closed lines. -/
theorem isLeast_closings
    (h : ReceiverMethod.closing? .word ((ofText text).codeLinesFrom first) = some last) :
    IsLeast ((ofText text).closings .word first) last.index := by
  obtain ⟨hclosed, front, back, hsplit, hfront⟩ := List.find?_eq_some_iff_append.1 h
  have hascending : Ascending ((ofText text).codeLinesFrom first) :=
    (codeLines_ascending text).filter _
  refine ⟨mem_closings_iff.2 ⟨last, List.mem_of_find?_eq_some h, rfl, hclosed⟩, ?_⟩
  intro index hindex
  obtain ⟨line, hline, rfl, hline_closed⟩ := mem_closings_iff.1 hindex
  rw [hsplit] at hascending hline
  rcases List.mem_append.1 hline with hmem | hmem
  · have hopen := hfront line hmem
    rw [hline_closed] at hopen
    cases hopen
  · exact hascending.of_append_right.le_of_mem_cons hmem

theorem closings_eq_empty
    (h : ReceiverMethod.closing? .word ((ofText text).codeLinesFrom first) = none) :
    (ofText text).closings .word first = ∅ := by
  refine Set.eq_empty_of_forall_notMem fun index hindex => ?_
  obtain ⟨line, hline, _, hclosed⟩ := mem_closings_iff.1 hindex
  exact List.find?_eq_none.1 h line hline hclosed

/-- The last of the lines of a text from some line on is the last line of the text. -/
theorem index_getLast? (hlines : (ofText text).lines = before ++ line :: following)
    (hlast : (line :: following).getLast? = some last) :
    last.index + 1 = (ofText text).size := by
  obtain ⟨front, hfront⟩ := List.getLast?_eq_some_iff.1 hlast
  have hsplit : (ofText text).lines = (before ++ front) ++ last :: [] := by
    rw [hlines, hfront, List.append_assoc]
  have hsize : (ofText text).size = (before ++ front).length + 1 := by
    rw [size, hsplit, List.length_append, List.length_singleton]
  rw [index_eq_length hsplit, hsize]

/-- A declaration ends where the counts over the code lines from its first line on say. -/
theorem endsOn_endLineOf (hfits : counting.Fits text)
    (hlines : (ofText text).lines = before ++ line :: following)
    (hcode : line.isCode = true) {reading : Reading}
    (hread : Heading.receiver.read? line.chars = some reading) :
    (ofText text).EndsOn counting line.index
      (ReceiverMethod.endLineOf line.index reading.rest following) := by
  have hascending := ofText_ascending text
  rw [hlines] at hascending
  have hend := ReceiverMethod.endLineOf_eq hread hcode hascending.of_append_right
  rw [← codeLinesFrom_index hlines] at hend
  rw [EndsOn, closings_of_fits hfits]
  cases hclosing : ReceiverMethod.closing? .word ((ofText text).codeLinesFrom line.index) with
  | some last =>
    rw [hclosing, Option.some_or, Option.map_some] at hend
    rw [Option.some.inj hend]
    exact Or.inl (isLeast_closings hclosing)
  | none =>
    rw [hclosing, Option.none_or] at hend
    obtain ⟨last, hlast, hindex⟩ := Option.map_eq_some_iff.1 hend.symm
    rw [← hindex]
    exact Or.inr ⟨closings_eq_empty hclosing, index_getLast? hlines hlast⟩

/-- What ends on a line starts there or before, if it starts inside the document. -/
theorem EndsOn.bounds {last : Nat} (h : (ofText text).EndsOn counting first last)
    (hfirst : first < (ofText text).size) : first ≤ last ∧ last < (ofText text).size := by
  rcases h with ⟨⟨⟨line, hline, hindex⟩, hle, _⟩, _⟩ | ⟨_, hlast⟩
  · have hlt := codeLines_lt_size hline
    omega
  · omega

end Document

/-! ## Headings and declarations -/

/-- A declaration is the one that starts on a line: it has the names and the column in the heading
of that line, and it ends where the brackets from there on are closed. -/
structure ReceiverMethod.DeclaredOn (document : Document) (counting : Counting) (line : Line)
    (method : ReceiverMethod) : Prop where
  startLine_eq : method.startLine = line.index
  heading : ∃ reading type name, Heading.receiver.read? line.chars = some reading ∧
    reading.group? 2 = some type ∧ reading.group? 3 = some name ∧
    method.receiverType = type.text line.chars ∧
    method.receiverName = ((reading.group? 1).map (·.text line.chars)).getD "" ∧
    method.name = name.text line.chars ∧ method.column = name.start
  ends : document.EndsOn counting method.startLine method.endLine
  start_le_end : method.startLine ≤ method.endLine
  end_lt_size : method.endLine < document.size

namespace Document

variable {counting : Counting} {text : String} {line : Line} {before following : List Line}

/-- A code line with a heading starts the declaration that the heading makes. -/
theorem exists_declaredOn (hfits : counting.Fits text)
    (hlines : (ofText text).lines = before ++ line :: following)
    (hcode : line.isCode = true) (hstarts : line.startsReceiver = true) :
    ∃ method, ReceiverMethod.ofLine? line following = some method ∧
      method.DeclaredOn (ofText text) counting line := by
  obtain ⟨reading, hread⟩ := Option.isSome_iff_exists.1 hstarts
  obtain ⟨lead, inner, middle, name, gap, rest, hparts⟩ := Heading.exists_receiverParts hread
  obtain ⟨type, htype⟩ := hparts.exists_type
  have hends := endsOn_endLineOf hfits hlines hcode hread
  have hbounds := hends.bounds (index_lt_size (by simp [hlines]))
  refine ⟨_, ReceiverMethod.ofLine?_eq_some_iff.2
    ⟨reading, type, _, hread, htype, hparts.name_group, rfl⟩, ?_⟩
  exact ⟨rfl, ⟨reading, type, _, hread, htype, hparts.name_group, rfl, rfl, rfl, rfl⟩, hends,
    hbounds.1, hbounds.2⟩

/-- A line without a heading starts no declaration. -/
theorem ofLine?_eq_none (hstarts : ¬ line.startsReceiver = true) :
    ReceiverMethod.ofLine? line following = none := by
  rw [ReceiverMethod.ofLine?_eq_none_iff]
  simpa [Line.startsReceiver] using hstarts

/-- From some line of a text on, each heading makes the declaration that starts on its line. -/
theorem among_declared (hfits : counting.Fits text) {lines : List Line}
    (hlines : (ofText text).lines = before ++ lines) :
    List.Forall₂ (ReceiverMethod.DeclaredOn (ofText text) counting)
      ((lines.filter Line.isCode).filter Line.startsReceiver) (ReceiverMethod.among lines) := by
  induction lines generalizing before with
  | nil => exact .nil
  | cons line following ih =>
    have hmore := ih (by rw [hlines, List.append_assoc, List.singleton_append] :
      (ofText text).lines = (before ++ [line]) ++ following)
    rw [ReceiverMethod.among]
    by_cases hcode : line.isCode = true
    · have hcomment : ¬ line.isComment = true := by simpa [Line.isCode] using hcode
      rw [List.filter_cons_of_pos hcode, if_neg hcomment]
      by_cases hstarts : line.startsReceiver = true
      · obtain ⟨method, hmethod, hdeclared⟩ := exists_declaredOn hfits hlines hcode hstarts
        rw [List.filter_cons_of_pos hstarts, hmethod]
        exact .cons hdeclared hmore
      · rw [List.filter_cons_of_neg hstarts, ofLine?_eq_none hstarts]
        exact hmore
    · have hcomment : line.isComment = true := by simpa [Line.isCode] using hcode
      rw [List.filter_cons_of_neg hcode, if_pos hcomment]
      exact hmore

theorem forall₂_declaredOn (hfits : counting.Fits text) :
    List.Forall₂ (ReceiverMethod.DeclaredOn (ofText text) counting)
      ((ofText text).codeLines.filter Line.startsReceiver) (ofText text).receiverMethods := by
  have hlines : (ofText text).lines = [] ++ (ofText text).lines := rfl
  rw [receiverMethods_eq]
  exact among_declared hfits hlines

/-- The methods with a receiver of a text are exactly those that its headings make.  In source
order there is one for each code line that holds a heading, whatever stands before that line, and
none for any other line; and each ends on the first code line at which its round and curly
brackets are closed, counted over whole lines, or on the last line of the document.  In every text
the brackets are counted in words of 32 bits, and in a text of fewer than `2 ^ 31` characters that
is to count them exactly. -/
theorem receiverMethods_declared (text : String) :
    List.Forall₂ (ReceiverMethod.DeclaredOn (ofText text) .word)
        ((ofText text).codeLines.filter Line.startsReceiver) (ofText text).receiverMethods ∧
      (text.length < Nat.pow 2 31 →
        List.Forall₂ (ReceiverMethod.DeclaredOn (ofText text) .exact)
          ((ofText text).codeLines.filter Line.startsReceiver) (ofText text).receiverMethods) ∧
      (ofText text).receiverMethods.Pairwise fun method later =>
        method.startLine < later.startLine :=
  ⟨forall₂_declaredOn (Or.inl rfl), fun hlength => forall₂_declaredOn (Or.inr hlength),
    receiverMethods_ascending text⟩

end Document

end Wayfinder
