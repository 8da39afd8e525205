import Wayfinder.Outline
import Wayfinder.Proofs.Lines

/-!
# Line endings

A line may end with a line feed, or with a carriage return and a line feed, and the last line
may end with the text.  A document does not show which.

* `Text.withReturns` puts a carriage return in front of every line feed.  The lines stay what
  they are if the text has no carriage returns of its own (`Text.splitLines_withReturns`).
* A line feed behind the last line ends it, and adds no line (`Text.splitLines_append_final`).
  A carriage return at the end of the text would become part of that ending.
* `Document.ofText_lineEndings`: neither change reaches the document, and so neither reaches
  what is found in it.
-/

namespace Wayfinder

namespace Text

/-- A character, with a carriage return in front of it if it is a line feed. -/
def withReturn (c : Char) : List Char :=
  if c = '\n' then ['\r', '\n'] else [c]

/-- A text with a carriage return in front of every line feed. -/
def withReturns (text : List Char) : List Char :=
  text.flatMap withReturn

theorem withReturns_feed (rest : List Char) :
    withReturns ('\n' :: rest) = '\r' :: '\n' :: withReturns rest := rfl

theorem withReturns_cons {c : Char} (hc : c ≠ '\n') (rest : List Char) :
    withReturns (c :: rest) = c :: withReturns rest := by
  rw [withReturns, List.flatMap_cons, withReturn, if_neg hc]
  rfl

/-- Carriage returns in front of the line feeds do not change the lines. -/
theorem splitLines_withReturns {text : List Char} (h : '\r' ∉ text) :
    splitLines (withReturns text) = splitLines text := by
  induction text with
  | nil => rfl
  | cons c rest ih =>
    obtain ⟨hreturn, hrest⟩ := not_or.1 (mt List.mem_cons.2 h)
    by_cases hc : c = '\n'
    · subst hc
      rw [withReturns_feed, splitLines, splitLines, ih hrest]
    · -- the character is no carriage return, so it ends no line with what follows it either
      have hpair : ∀ {more : List Char} (behind : List Char), c = '\r' → more ≠ '\n' :: behind :=
        fun _ heq => absurd heq.symm hreturn
      rw [withReturns_cons hc, splitLines_cons hc hpair, splitLines_cons hc hpair, ih hrest]

/-- A line feed behind a last line that has no ending does not change the lines. -/
theorem splitLines_append_final {text : List Char} (hne : text ≠ [])
    (hfeed : text.getLast? ≠ some '\n') (hreturn : text.getLast? ≠ some '\r') :
    splitLines (text ++ ['\n']) = splitLines text := by
  induction text using byLines with
  | nil => exact absurd rfl hne
  | line text line ending rest hfirst ih =>
    by_cases hrest : rest = []
    · -- the first line is also the last, and has no ending
      subst hrest
      cases hfirst with
      | feed => simp at hfeed
      | returnFeed => simp at hfeed
      | last hline =>
        rw [splitLines_append_feed hline hreturn, splitLines_of_no_feed hne hline]
        rfl
    · have hlast : text.getLast? = rest.getLast? := by
        rw [hfirst.text_eq, ← List.append_assoc, List.getLast?_append_of_ne_nil _ hrest]
      rw [hlast] at hfeed hreturn
      rw [hfirst.splitLines_eq, ← ih hrest hfeed hreturn]
      cases hfirst with
      | feed hline hbefore =>
        rw [List.append_assoc, List.cons_append, splitLines_append_feed hline hbefore]
      | returnFeed hline =>
        rw [List.append_assoc, List.cons_append, List.cons_append,
          splitLines_append_returnFeed hline]
      | last => exact absurd rfl hrest

end Text

namespace Document

/-- Texts with the same lines are one document. -/
theorem ofText_congr {text other : String}
    (h : Text.splitLines text.toList = Text.splitLines other.toList) :
    ofText text = ofText other := by
  rw [ofText, ofText, h]

/-- A text with a carriage return in front of every line feed. -/
def withReturns (text : String) : String :=
  String.ofList (Text.withReturns text.toList)

/-- Line endings do not matter.  A text without carriage returns is the same document, with the
same lines, comment marks, declarations and hints, if a carriage return is put in front of every
line feed, and if a line feed is put behind a last line that has none. -/
theorem ofText_lineEndings {text : String} (hreturn : '\r' ∉ text.toList) :
    (ofText (withReturns text) = ofText text ∧
      ∀ lookahead, (ofText (withReturns text)).outline lookahead = (ofText text).outline lookahead ∧
        (ofText (withReturns text)).hints lookahead = (ofText text).hints lookahead) ∧
    (text ≠ "" → text.toList.getLast? ≠ some '\n' →
      ofText (text ++ "\n") = ofText text ∧
      ∀ lookahead, (ofText (text ++ "\n")).outline lookahead = (ofText text).outline lookahead ∧
        (ofText (text ++ "\n")).hints lookahead = (ofText text).hints lookahead) := by
  constructor
  · have hsame : ofText (withReturns text) = ofText text := by
      apply ofText_congr
      rw [withReturns, String.toList_ofList, Text.splitLines_withReturns hreturn]
    rw [hsame]
    exact ⟨rfl, fun _ => ⟨rfl, rfl⟩⟩
  · intro hne hfeed
    have hchars : text.toList ≠ [] := by
      intro hnil
      exact hne (String.toList_inj.1 hnil)
    have hlast : text.toList.getLast? ≠ some '\r' := by
      intro hmem
      exact hreturn (List.mem_of_getLast? hmem)
    have hsame : ofText (text ++ "\n") = ofText text := by
      apply ofText_congr
      rw [String.toList_append]
      exact Text.splitLines_append_final hchars hfeed hlast
    rw [hsame]
    exact ⟨rfl, fun _ => ⟨rfl, rfl⟩⟩

/-- A signature is open where the text ends, behind a block comment with a line of its own. -/
theorem ofText_lineEndings_unclosed :
    let text := "type A interface \x7b\n\tF(a int,\n/* (\n*/"
    (ofText (withReturns text) = ofText text ∧ ofText (text ++ "\n") = ofText text) ∧
      (ofText text).size = 4 := by
  intro text
  have hreturn : '\r' ∉ text.toList := by decide
  have hfeed : text.toList.getLast? ≠ some '\n' := by decide
  have hsame := ofText_lineEndings hreturn
  exact ⟨⟨hsame.1.1, (hsame.2 (by decide) hfeed).1⟩, by decide⟩

/-- A carriage return at the end of a text belongs to its last line until a line feed follows. -/
example : ofText "a\r\n" ≠ ofText "a\r" := by decide

end Document

end Wayfinder
