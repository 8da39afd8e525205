import Wayfinder.Proofs.Interface.Segmentation
import Wayfinder.Proofs.Interface.Signatures

/-!
# Which signatures an interface reports, and where they end

The signatures of an interface are a matter of its code lines alone.  This module
states both halves of that without a scanner and proves them for every text and
every lookahead.

* `completion?` is the rule for where a signature ends, by counts of round brackets
  over the code lines from its first line on.  The lines that a draft takes end there, by
  counts in words (`completion?_of_spans`), and so by exact counts in every text that is
  not enormous (`Counting.Fits.completion?_eq`).
* `Document.reads_methods` says that the signatures of an interface are read from its
  code lines, the comment lines left out.
* `Document.ReportsSignatures` says that the signatures of an interface are exactly
  those that its headings make.
-/

namespace Wayfinder

/-! ## Where a signature ends -/

/-- The line on which a signature ends that starts on the first of some code lines.  Its
parameters close on the first line at which no bracket is open.  If nothing follows them
there, and a result list starts behind fewer blank lines than the lookahead allows, the
signature ends where the results close.  Brackets that never close run to the last line. -/
def completion? (counting : Counting) (lookahead : Nat) (lines : List Line) : Option Line :=
  match Bracket.parens.firstClosed? counting lines with
  | none => lines.getLast?
  | some closing =>
    if tailAfterLastParen closing.chars ≠ [] then some closing
    else
      let following := lines.filter fun line => closing.index < line.index
      let blanks := following.takeWhile Line.isBlank
      let results := following.dropWhile Line.isBlank
      if blanks.length < lookahead ∧ results.head?.bind (·.trimmed.head?) = some '(' then
        (Bracket.parens.firstClosed? counting results).or lines.getLast?
      else some closing

section Completion

variable {counting : Counting} {lookahead : Nat}
  {lines span rest blanks parameters more : List Line} {line next closing last : Line}

theorem takeWhile_isBlank (hblanks : ∀ line ∈ blanks, line.isBlank = true)
    (hnext : next.trimmed.head? = some '(') :
    (blanks ++ next :: more).takeWhile Line.isBlank = blanks := by
  rw [List.takeWhile_append_of_pos hblanks,
    List.takeWhile_cons_of_neg (Line.not_isBlank_of_head?_trimmed hnext), List.append_nil]

theorem dropWhile_isBlank (hblanks : ∀ line ∈ blanks, line.isBlank = true)
    (hnext : next.trimmed.head? = some '(') :
    (blanks ++ next :: more).dropWhile Line.isBlank = next :: more := by
  rw [List.dropWhile_append_of_pos hblanks,
    List.dropWhile_cons_of_neg (Line.not_isBlank_of_head?_trimmed hnext)]

/-- A result list starts soon enough exactly if it does so behind the leading blank lines. -/
theorem wrapped_iff :
    Wrapped lookahead lines ↔ (lines.takeWhile Line.isBlank).length < lookahead ∧
      (lines.dropWhile Line.isBlank).head?.bind (·.trimmed.head?) = some '(' := by
  constructor
  · rintro ⟨blanks, next, more, rfl, hblanks, hbudget, hnext⟩
    rw [takeWhile_isBlank hblanks hnext, dropWhile_isBlank hblanks hnext]
    exact ⟨hbudget, hnext⟩
  · rintro ⟨hbudget, hhead⟩
    obtain ⟨next, hresults, hnext⟩ := Option.bind_eq_some_iff.1 hhead
    obtain ⟨more, hresults⟩ := List.head?_eq_some_iff.1 hresults
    refine ⟨_, next, more, ?_, List.all_eq_true.1 List.all_takeWhile, hbudget, hnext⟩
    rw [← hresults, List.takeWhile_append_dropWhile]

/-- Parameters that close with code behind them end the signature. -/
theorem completion?_of_tail (hclosed : Bracket.parens.firstClosed? counting lines = some closing)
    (htail : tailAfterLastParen closing.chars ≠ []) :
    completion? counting lookahead lines = some closing := by
  simp only [completion?, hclosed, if_pos htail]

/-- Parameters that close with nothing behind them end the signature unless results follow. -/
theorem completion?_of_alone (hclosed : Bracket.parens.firstClosed? counting lines = some closing)
    (hrest : (lines.filter fun line => closing.index < line.index) = rest)
    (hnot : ¬ Wrapped lookahead rest) :
    completion? counting lookahead lines = some closing := by
  rw [wrapped_iff] at hnot
  simp only [completion?, hclosed, hrest, if_neg hnot, ite_self]

/-- Results that follow the parameters soon enough end the signature. -/
theorem completion?_of_wrapped (hclosed : Bracket.parens.firstClosed? counting lines = some closing)
    (htail : tailAfterLastParen closing.chars = [])
    (hrest : (lines.filter fun line => closing.index < line.index) = blanks ++ next :: more)
    (hblanks : ∀ line ∈ blanks, line.isBlank = true) (hbudget : blanks.length < lookahead)
    (hnext : next.trimmed.head? = some '(') :
    completion? counting lookahead lines =
      (Bracket.parens.firstClosed? counting (next :: more)).or lines.getLast? := by
  simp only [completion?, hclosed, hrest, htail, ne_eq, not_true_eq_false, if_false,
    takeWhile_isBlank hblanks hnext, dropWhile_isBlank hblanks hnext]
  exact if_pos ⟨hbudget, hnext⟩

/-- The lines that a draft takes end where the rule says. -/
theorem completion?_of_spans (h : Spans lookahead span rest last)
    (hlines : Ascending (span ++ rest)) :
    completion? .word lookahead (span ++ rest) = some last := by
  cases h with
  | unclosed hstays hlast =>
    rw [List.append_nil] at hlines ⊢
    rw [completion?, Bracket.firstClosed?_of_staysOpen hlines hstays]
    exact hlast
  | behind hcloses htail =>
    exact completion?_of_tail (Bracket.firstClosed?_of_closesOn hlines hcloses) htail
  | alone hcloses htail hrest =>
    exact completion?_of_alone (Bracket.firstClosed?_of_closesOn hlines hcloses)
      (hlines.filter_gt hcloses.getLast?) hrest
  | @wrapped parameters blanks results rest closing next last hcloses htail hblanks hbudget hnext
      hresults =>
    rw [List.append_assoc, List.append_assoc, List.cons_append] at hlines ⊢
    have hbehind : Ascending (next :: results ++ rest) :=
      hlines.of_append_right.of_append_right
    rw [completion?_of_wrapped (Bracket.firstClosed?_of_closesOn hlines hcloses) htail
      (hlines.filter_gt hcloses.getLast?) hblanks hbudget hnext, ← List.cons_append,
      Bracket.firstClosed?_of_closesOn hbehind hresults, Option.some_or]
  | wrappedUnclosed hcloses htail hblanks hbudget hnext hresults hlast =>
    rw [List.append_nil] at hlines ⊢
    rw [completion?_of_wrapped (Bracket.firstClosed?_of_closesOn hlines hcloses) htail
      (hlines.filter_gt hcloses.getLast?) hblanks hbudget hnext,
      Bracket.firstClosed?_of_staysOpen hlines.of_append_right.of_append_right hresults,
      Option.none_or]
    simp only [List.getLast?_append, hlast, Option.some_or]

/-- The rule says the same by all ways to count that are good enough for a text. -/
theorem Counting.Fits.completion?_eq {text : String} (h : counting.Fits text)
    (hlines : lines.Sublist (Document.ofText text).lines) (lookahead : Nat) :
    completion? counting lookahead lines = completion? .word lookahead lines := by
  have hresults : ∀ closing : Line,
      ((lines.filter fun line => closing.index < line.index).dropWhile Line.isBlank).Sublist
        (Document.ofText text).lines :=
    fun closing => (List.dropWhile_sublist _).trans (List.filter_sublist.trans hlines)
  simp only [completion?, h.firstClosed?_eq hlines, h.firstClosed?_eq (hresults _)]

end Completion

/-! ## The signatures of an interface -/

/-- Whether a line is one of the lines of the signature. -/
def Signature.contains (signature : Signature) (line : Nat) : Bool :=
  decide (signature.line ≤ line) && decide (line ≤ signature.endLine)

/-- A line of a signature lies in no other signature of the interface. -/
theorem Interface.WellFormed.countP_contains {interface : Interface} (h : interface.WellFormed)
    {method : Signature} (hmem : method ∈ interface.methods) {line : Nat}
    (hline : method.contains line = true) :
    interface.methods.countP (·.contains line) = 1 := by
  refine countP_eq_one_of_pairwise (h.ordered.imp ?_) hmem hline
  intro first second hbefore hfirst
  simp only [Signature.contains, Signature.Before, Bool.and_eq_true, decide_eq_true_eq,
    Bool.and_eq_false_iff, decide_eq_false_iff_not] at hbefore hfirst ⊢
  omega

namespace Document

/-- The code lines of an interface behind its first line. -/
def bodyLines (document : Document) (interface : Interface) : List Line :=
  document.codeLines.filter fun line =>
    interface.startLine < line.index && line.index ≤ interface.endLine

theorem mem_bodyLines {document : Document} {interface : Interface} {line : Line} :
    line ∈ document.bodyLines interface ↔ (line ∈ document.lines ∧ line.isComment = false) ∧
      interface.startLine < line.index ∧ line.index ≤ interface.endLine := by
  simp only [bodyLines, List.mem_filter, mem_codeLines, Bool.and_eq_true, decide_eq_true_eq]

theorem bodyLines_ascending (text : String) (interface : Interface) :
    Ascending ((ofText text).bodyLines interface) :=
  (codeLines_ascending text).filter _

/-- The signatures of an interface are read from its code lines. -/
theorem reads_methods {text : String} {lookahead : Nat} {interface : Interface}
    (hmem : interface ∈ (ofText text).interfaces lookahead) :
    Reads lookahead interface.name ((ofText text).bodyLines interface) interface.methods := by
  obtain ⟨line, _, opened, hopened, heq⟩ :=
    (((ofText text).scans_interfaces lookahead).piece hmem).eq_close_run (codeLines_ascending text)
      fun _ hline => codeLines_lt_size hline
  have hsound := (Body.sound_of_ofLine? hopened).1
  have hstart : interface.startLine = line.index := by
    rw [heq, Body.startLine_close_run hopened]
  have hname : interface.name = opened.name := by
    rw [heq, Body.close_name, Body.run_name]
  have hmethods : interface.methods =
      opened.outcome ((ofText text).bodyLines interface) interface.endLine :=
    (congrArg Interface.methods heq).trans (opened.close_run_methods _ _)
  have hbehind : ∀ other ∈ (ofText text).bodyLines interface, line.index + 1 ≤ other.index :=
    fun other hother => hstart ▸ (mem_bodyLines.1 hother).2.1
  have hle : ∀ other ∈ (ofText text).bodyLines interface, other.index ≤ interface.endLine :=
    fun other hother => (mem_bodyLines.1 hother).2.2
  obtain ⟨reading, name, _, _, rfl⟩ := Body.ofLine?_eq_some_iff.1 hopened
  obtain ⟨signatures, houtcome, hreads⟩ := Body.reads_of_outcome hsound.toRecorded rfl
    (bodyLines_ascending text interface) hbehind hle
  rw [hmethods, houtcome, hname]
  exact hreads

/-- Parameters over several lines, one of which looks like a signature, and results behind a blank
line. -/
def wrappedText : String :=
  "type R interface \x7b\n\tRead(\n\t\tf(n int),\n\t)\n\n\t(error)\n\tClose() error\n\x7d"

/-- The interface of `wrappedText`. -/
def wrappedInterface : Interface :=
  { name := "R", startLine := 0, endLine := 7,
    methods := [{ owner := "R", name := "Read", line := 1, column := 1, endLine := 5 },
      { owner := "R", name := "Close", line := 6, column := 1, endLine := 6 }] }

theorem wrappedInterface_mem : wrappedInterface ∈ (ofText wrappedText).interfaces 2 := by
  decide +kernel

theorem bodyLines_sublist (document : Document) (interface : Interface) :
    (document.bodyLines interface).Sublist document.lines :=
  List.filter_sublist.trans List.filter_sublist

/-- A signature ends where the code lines say. -/
theorem endLine_eq_completion {text : String} {lookahead : Nat} {interface : Interface}
    (hmem : interface ∈ (ofText text).interfaces lookahead) {method : Signature}
    (hmethod : method ∈ interface.methods) :
    (completion? .word lookahead (((ofText text).bodyLines interface).filter fun line =>
      method.line ≤ line.index)).map Line.index = some method.endLine := by
  obtain ⟨before, line, inner, rest, last, draft, hlines, hdraft, hspans, rfl⟩ :=
    (reads_methods hmem).exists_spans_of_mem hmethod
  have hascending := bodyLines_ascending text interface
  have hline : (draft.signature interface.name last.index).line = line.index :=
    (Body.reaches_of_ofLine? hdraft).2.1
  rw [hlines, List.cons_append] at hascending ⊢
  have hlast := completion?_of_spans hspans hascending.of_append_right
  rw [List.cons_append] at hlast
  rw [hline, hascending.filter_ge, hlast]
  rfl

/-- Every signature that an interface reports ends where the code lines of the interface from
its first line on say.  In every text the brackets are counted in words of 32 bits, and in a text
of fewer than `2 ^ 31` characters that is to count them exactly. -/
theorem endLine_completion {text : String} {lookahead : Nat} {interface : Interface}
    (hmem : interface ∈ (ofText text).interfaces lookahead) {method : Signature}
    (hmethod : method ∈ interface.methods) :
    (completion? .word lookahead (((ofText text).bodyLines interface).filter fun line =>
        method.line ≤ line.index)).map Line.index = some method.endLine ∧
      (text.length < Nat.pow 2 31 →
        (completion? .exact lookahead (((ofText text).bodyLines interface).filter fun line =>
          method.line ≤ line.index)).map Line.index = some method.endLine) := by
  have hword := endLine_eq_completion hmem hmethod
  refine ⟨hword, fun hlength => ?_⟩
  have hfits : Counting.exact.Fits text := Or.inr hlength
  rwa [hfits.completion?_eq (List.filter_sublist.trans (bodyLines_sublist _ _))]

theorem endLine_completion_wrapped :
    wrappedInterface ∈ (ofText wrappedText).interfaces 2 ∧
      ⟨"R", "Read", 1, 1, 5⟩ ∈ wrappedInterface.methods ∧
      (completion? .exact 2 (((ofText wrappedText).bodyLines wrappedInterface).filter fun line =>
        1 ≤ line.index)).map Line.index = some 5 := by
  have hmethod : ⟨"R", "Read", 1, 1, 5⟩ ∈ wrappedInterface.methods := by decide
  have hlength : wrappedText.length < Nat.pow 2 31 := by decide
  exact ⟨wrappedInterface_mem, hmethod,
    (endLine_completion wrappedInterface_mem hmethod).2 hlength⟩

/-- An interface reports exactly the signatures that the headings on its code lines make. -/
structure ReportsSignatures (document : Document) (interface : Interface) : Prop where
  /-- A code line that starts a signature lies in exactly one. -/
  one_of_heading : ∀ line ∈ document.lines, line.isComment = false →
    interface.startLine < line.index → line.index ≤ interface.endLine →
    (Heading.signature.read? line.chars).isSome = true →
    interface.methods.countP (·.contains line.index) = 1
  /-- If it lies in none that starts before it, a signature starts there, with the name in the
  heading. -/
  start_of_heading : ∀ line ∈ document.lines, line.isComment = false →
    interface.startLine < line.index → line.index ≤ interface.endLine → ∀ reading,
    Heading.signature.read? line.chars = some reading →
    (∀ earlier ∈ interface.methods, earlier.line < line.index → earlier.endLine < line.index) →
    ∃ method ∈ interface.methods, method.line = line.index ∧
      (reading.group? 1).map (·.text line.chars) = some method.name
  /-- No other line starts one. -/
  heading_of_start : ∀ method ∈ interface.methods, ∃ line ∈ document.lines,
    line.isComment = false ∧ line.index = method.line ∧ interface.startLine < line.index ∧
    ∃ reading, Heading.signature.read? line.chars = some reading ∧
      (reading.group? 1).map (·.text line.chars) = some method.name

/-- A code line that starts a signature lies in one that the interface reports. -/
theorem exists_method_of_heading {text : String} {lookahead : Nat} {interface : Interface}
    (hmem : interface ∈ (ofText text).interfaces lookahead) {line : Line}
    (hline : line ∈ (ofText text).bodyLines interface) {reading : Reading}
    (hread : Heading.signature.read? line.chars = some reading) :
    ∃ method ∈ interface.methods, method.contains line.index = true ∧
      (method.line = line.index →
        (reading.group? 1).map (·.text line.chars) = some method.name) := by
  obtain ⟨lead, name, gap, rest, hparts⟩ := Heading.exists_signatureParts hread
  have hdraft : Draft.ofLine? line = some _ :=
    Draft.ofLine?_eq_some_iff.2 ⟨reading, _, hread, hparts.group_eq, rfl⟩
  obtain ⟨method, hmethod, hstart, hend, hname⟩ :=
    (reads_methods hmem).exists_mem_of_ofLine? (bodyLines_ascending text interface) hline hdraft
  refine ⟨method, hmethod, ?_, fun heq => ?_⟩
  · simp only [Signature.contains, hstart, hend, decide_true, Bool.and_self]
  · rw [hparts.group_eq, hname heq]
    rfl

/-- The interfaces of a text report exactly the signatures that their headings make. -/
theorem interfaces_reportSignatures {text : String} {lookahead : Nat} {interface : Interface}
    (hmem : interface ∈ (ofText text).interfaces lookahead) :
    (ofText text).ReportsSignatures interface := by
  have hwellFormed := (sweep_sound text lookahead).finish.each interface hmem
  refine ⟨?_, ?_, ?_⟩
  · intro line hline hcode hlt hle hread
    obtain ⟨reading, hread⟩ := Option.isSome_iff_exists.1 hread
    obtain ⟨method, hmethod, hcontains, _⟩ :=
      exists_method_of_heading hmem (mem_bodyLines.2 ⟨⟨hline, hcode⟩, hlt, hle⟩) hread
    exact hwellFormed.countP_contains hmethod hcontains
  · intro line hline hcode hlt hle reading hread houtside
    obtain ⟨method, hmethod, hcontains, hname⟩ :=
      exists_method_of_heading hmem (mem_bodyLines.2 ⟨⟨hline, hcode⟩, hlt, hle⟩) hread
    simp only [Signature.contains, Bool.and_eq_true, decide_eq_true_eq] at hcontains
    have hstart : method.line = line.index := by
      have := houtside method hmethod
      omega
    exact ⟨method, hmethod, hstart, hname hstart⟩
  · intro method hmethod
    obtain ⟨before, line, inner, rest, last, draft, hlines, hdraft, _, rfl⟩ :=
      (reads_methods hmem).exists_spans_of_mem hmethod
    obtain ⟨reading, name, hread, hname, rfl⟩ := Draft.ofLine?_eq_some_iff.1 hdraft
    have hline : line ∈ (ofText text).bodyLines interface := by
      rw [hlines]
      simp
    obtain ⟨⟨hdocument, hcode⟩, hlt, _⟩ := mem_bodyLines.1 hline
    exact ⟨line, hdocument, hcode, rfl, hlt, reading, hread, by rw [hname]; rfl⟩

theorem interfaces_reportSignatures_wrapped :
    wrappedInterface ∈ (ofText wrappedText).interfaces 2 ∧
      (ofText wrappedText).ReportsSignatures wrappedInterface :=
  ⟨wrappedInterface_mem, interfaces_reportSignatures wrappedInterface_mem⟩

end Document

end Wayfinder
