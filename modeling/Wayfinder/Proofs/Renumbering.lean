import Wayfinder.Outline
import Wayfinder.Proofs.Interface.Renumbering
import Wayfinder.Proofs.Receiver

/-!
# Renumbered documents

When lines are added to a document, the lines behind them get other numbers.  This
module carries renumbering from the scanner to outlines and hints, and follows the
numbers and the block comments through a list of lines.

* `Outline.renumber` and `Hint.renumber` replace line numbers and nothing else.
* `ReceiverMethod.among_renumber` is the counterpart of `Scanner.sweep_renumber` for
  methods with a receiver.
* `blockBehind` tells whether a block comment is open behind some lines.  Lines are
  marked piece by piece (`markLines_append`), and their numbers may start anywhere
  (`markLines_renumber`).
-/

namespace Wayfinder

/-! ## Outlines -/

/-- A method with a receiver, with other line numbers. -/
def ReceiverMethod.renumber (f : Nat → Nat) (method : ReceiverMethod) : ReceiverMethod :=
  { method with startLine := f method.startLine, endLine := f method.endLine }

/-- A hint with another line number. -/
def Hint.renumber (f : Nat → Nat) (hint : Hint) : Hint :=
  { hint with line := f hint.line }

/-- An outline with other line numbers. -/
def Outline.renumber (f : Nat → Nat) (outline : Outline) : Outline :=
  { interfaces := outline.interfaces.map (Interface.renumber f)
    receiverMethods := outline.receiverMethods.map (ReceiverMethod.renumber f) }

theorem Outline.hints_renumber (f : Nat → Nat) (outline : Outline) :
    (outline.renumber f).hints = outline.hints.map (Hint.renumber f) := by
  simp only [hints, renumber, Interface.renumber, List.map_append, List.map_map, List.map_flatMap,
    List.flatMap_map]
  rfl

/-! ## Methods with a receiver -/

namespace ReceiverMethod

theorem endFrom_renumber (f : Nat → Nat) (parens braces : Depth) (last : Nat)
    (lines : List Line) :
    endFrom parens braces (f last) (lines.map (Line.renumber f)) =
      f (endFrom parens braces last lines) := by
  induction lines generalizing parens braces last with
  | nil => rfl
  | cons line more ih =>
    simp only [List.map_cons, endFrom_cons, Line.isComment_renumber, Line.chars_renumber,
      Line.index_renumber, ih]
    split_ifs <;> rfl

theorem ofLine?_renumber (f : Nat → Nat) (line : Line) (following : List Line) :
    ofLine? (line.renumber f) (following.map (Line.renumber f)) =
      (ofLine? line following).map (renumber f) := by
  have hend : ∀ rest, endLineOf (f line.index) rest (following.map (Line.renumber f)) =
      f (endLineOf line.index rest following) := by
    intro rest
    simp only [endLineOf_eq_ite, endFrom_renumber]
    split_ifs <;> rfl
  simp only [ofLine?_eq, Line.chars_renumber, Line.index_renumber, hend, Option.map_bind,
    Function.comp_def, Option.map_map]
  rfl

/-- Listing declarations commutes with renumbering. -/
theorem among_renumber (f : Nat → Nat) (lines : List Line) :
    among (lines.map (Line.renumber f)) = (among lines).map (renumber f) := by
  induction lines with
  | nil => rfl
  | cons line more ih =>
    rw [List.map_cons, among, among, ofLine?_renumber, Line.isComment_renumber, ih, List.map_append]
    split
    · rfl
    · cases ofLine? line more <;> rfl

end ReceiverMethod

/-! ## Marking lines piece by piece -/

/-- Whether a block comment is open behind some lines, if one may be open before them. -/
def blockBehind (inBlock : Bool) (texts : List (List Char)) : Bool :=
  texts.foldl (fun inBlock chars => (classify inBlock chars).inBlock) inBlock

theorem markLines_append (index : Nat) (inBlock : Bool) (texts more : List (List Char)) :
    markLines index inBlock (texts ++ more) =
      markLines index inBlock texts ++
        markLines (index + texts.length) (blockBehind inBlock texts) more := by
  induction texts generalizing index inBlock with
  | nil => rfl
  | cons chars texts ih =>
    simp only [List.cons_append, markLines, ih, List.length_cons, Nat.add_assoc, Nat.add_comm 1]
    rfl

/-- Lines that are numbered from another line on are renumbered lines. -/
theorem markLines_renumber {f : Nat → Nat} {index index' : Nat} (inBlock : Bool)
    (texts : List (List Char))
    (hf : ∀ offset < texts.length, f (index + offset) = index' + offset) :
    (markLines index inBlock texts).map (Line.renumber f) = markLines index' inBlock texts := by
  induction texts generalizing index index' inBlock with
  | nil => rfl
  | cons chars texts ih =>
    have hfirst : f index = index' := hf 0 (Nat.succ_pos _)
    have hmore : ∀ offset < texts.length, f (index + 1 + offset) = index' + 1 + offset := by
      intro offset hoffset
      have := hf (offset + 1) (Nat.succ_lt_succ hoffset)
      rwa [Nat.add_assoc, Nat.add_comm 1, Nat.add_assoc, Nat.add_comm 1]
    simp only [markLines, List.map_cons, ih _ hmore, Line.renumber, hfirst]

theorem length_markLines (index : Nat) (inBlock : Bool) (texts : List (List Char)) :
    (markLines index inBlock texts).length = texts.length := by
  have hlength := congrArg List.length (markLines_map_index index inBlock texts)
  rwa [List.length_map, List.length_range'] at hlength

namespace Document

/-- A document has as many lines as its text. -/
theorem size_ofText (text : String) :
    (ofText text).size = (Text.splitLines text.toList).length :=
  length_markLines 0 false _

end Document

end Wayfinder
