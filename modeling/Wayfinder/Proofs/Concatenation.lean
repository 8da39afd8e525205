import Wayfinder.Proofs.Interface.Segmentation
import Wayfinder.Proofs.Lines
import Wayfinder.Proofs.Renumbering

/-!
# One text behind another

A text that leaves nothing open can be put in front of any other text: each of them
keeps its declarations, and the line numbers of the second move on by the number of
lines of the first.

* `Document.SelfContained` says what "leaves nothing open" means: the text ends with a
  line and outside of block comments, and the brackets of all its declarations are closed
  on the lines on which the declarations end.
* The scan for interfaces then ends with no interface open (`Document.sweep_eq`), and what
  it finds behind does not depend on what it has found (`Scanner.sweep_behind`).
* No declaration with a receiver reaches beyond the text
  (`Document.exists_closing_of_selfContained`).
-/

namespace Wayfinder

/-! ## A scan goes on behind what it has found -/

namespace Scanner

/-- The state of a scan that found some interfaces before. -/
def behind (found : List Interface) (scanner : Scanner) : Scanner :=
  { found := found ++ scanner.found, body := scanner.body }

variable {lookahead size : Nat} {found interfaces : List Interface} {lines : List Line}

theorem settle_behind (found : List Interface) (scanner : Scanner) (body : Body) (line : Line) :
    (scanner.behind found).settle body line = (scanner.settle body line).behind found := by
  rw [settle_eq, settle_eq]
  split
  · simp only [behind, List.append_assoc]
  · rfl

theorem step_behind (lookahead : Nat) (found : List Interface) (scanner : Scanner) (line : Line) :
    step lookahead (scanner.behind found) line = (step lookahead scanner line).behind found := by
  have hbody : (scanner.behind found).body = scanner.body := rfl
  rw [step_eq, step_eq, hbody]
  split
  · rfl
  · cases scanner.body with
    | some body => exact scanner.settle_behind found (body.read line) line
    | none =>
      cases Body.ofLine? lookahead line with
      | some body => exact scanner.settle_behind found body line
      | none => rfl

/-- What was found before does not change what is found behind it. -/
theorem sweep_behind (lookahead : Nat) (found : List Interface) (scanner : Scanner)
    (lines : List Line) :
    sweep (step lookahead) (scanner.behind found) lines =
      (sweep (step lookahead) scanner lines).behind found := by
  induction lines generalizing scanner with
  | nil => rfl
  | cons line more ih => rw [sweep_cons, sweep_cons, step_behind, ih]

theorem finish_behind (found : List Interface) (scanner : Scanner) (size : Nat) :
    (scanner.behind found).finish size = found ++ scanner.finish size := by
  have hbody : (scanner.behind found).body = scanner.body := rfl
  rw [finish_eq, finish_eq, hbody]
  cases scanner.body with
  | none => rfl
  | some body => simp only [behind, List.append_assoc]

/-- A sweep ends with no interface open, unless it cuts out one whose curly brackets stay open. -/
theorem sweep_or_staysOpen (h : Scans lookahead size lines interfaces)
    (hcode : ∀ line ∈ lines, line.isComment = false) (found : List Interface) :
    sweep (step lookahead) ⟨found, none⟩ lines = ⟨found ++ interfaces, none⟩ ∨
      ∃ before line body opened, lines = before ++ line :: body ∧
        Body.ofLine? lookahead line = some opened ∧
        Bracket.braces.StaysOpen 0 (line :: body) ∧
        (opened.run body).close (size - 1) ∈ interfaces := by
  induction h generalizing found with
  | done => exact Or.inl (by rw [List.append_nil]; rfl)
  | @skip line rest interfaces hline _ ih =>
    have hstep : step lookahead ⟨found, none⟩ line = ⟨found, none⟩ := by
      simp [step_eq, hline]
    have hmore := ih (fun later hlater => hcode later (List.mem_cons_of_mem line hlater)) found
    rcases hmore with hsweep | ⟨before, first, body, opened, rfl, hfacts⟩
    · exact Or.inl (by rw [sweep_cons, hstep, hsweep])
    · exact Or.inr ⟨line :: before, first, body, opened, rfl, hfacts⟩
  | @closed line last body rest opened interfaces hline hcloses _ ih =>
    have hblock : ∀ other ∈ line :: body, other.isComment = false :=
      fun other hother => hcode other (List.mem_append_left rest hother)
    have hmore := ih (fun later hlater => hcode later (List.mem_append_right (line :: body) hlater))
      (found ++ [(opened.run body).close last.index])
    rcases hmore with hsweep | ⟨before, first, inner, other, rfl, hother, hstays, hmem⟩
    · left
      rw [sweep_append, sweep_opening_closesOn hblock hline hcloses, hsweep, List.append_assoc]
      rfl
    · exact Or.inr ⟨line :: body ++ before, first, inner, other, by simp, hother, hstays,
        List.mem_cons_of_mem _ hmem⟩
  | @unclosed line body opened hline hstays =>
    exact Or.inr ⟨[], line, body, opened, rfl, hline, hstays, List.mem_singleton_self _⟩

end Scanner

/-! ## Texts that leave nothing open -/

namespace Document

/-- The code lines of a document from a line up to another. -/
def codeLinesBetween (document : Document) (first last : Nat) : List Line :=
  (document.codeLinesFrom first).filter fun line => line.index ≤ last

/-- A text leaves nothing open: it ends with a line and outside of block comments, and the brackets
of each of its declarations are closed on the last line of the declaration, by a way to count that
is good enough for the text. -/
structure SelfContained (counting : Counting) (text : String) (lookahead : Nat) : Prop where
  fits : counting.Fits text
  ends_line : text.toList = [] ∨ text.toList.getLast? = some '\n'
  ends_in_code : blockBehind false (Text.splitLines text.toList) = false
  interface_closed : ∀ interface ∈ (ofText text).interfaces lookahead,
    counting.isClosed (Bracket.braces.netOver
      ((ofText text).codeLinesBetween interface.startLine interface.endLine)) = true
  receiver_closed : ∀ method ∈ (ofText text).receiverMethods,
    counting.isClosed (Bracket.parens.netOver
        ((ofText text).codeLinesBetween method.startLine method.endLine)) = true ∧
      counting.isClosed (Bracket.braces.netOver
        ((ofText text).codeLinesBetween method.startLine method.endLine)) = true

variable {counting : Counting} {text : String} {lookahead : Nat} {before following : List Line}
  {line : Line}

theorem codeLinesBetween_sublist (document : Document) (first last : Nat) :
    (document.codeLinesBetween first last).Sublist document.lines :=
  List.filter_sublist.trans (codeLinesFrom_sublist document first)

theorem codeLinesFrom_index (hlines : (ofText text).lines = before ++ line :: following) :
    (ofText text).codeLinesFrom line.index = (line :: following).filter Line.isCode := by
  have hascending := ofText_ascending text
  rw [hlines] at hascending
  have hcode : (ofText text).codeLines = (before ++ line :: following).filter Line.isCode := by
    rw [← hlines]
    rfl
  rw [codeLinesFrom, hcode, List.filter_comm, hascending.filter_ge]

/-- A declaration with a receiver in a self-contained text is closed inside it. -/
theorem exists_closing_of_selfContained (h : SelfContained counting text lookahead)
    (hlines : (ofText text).lines = before ++ line :: following) (hcode : line.isCode = true)
    {reading : Reading} (hread : Heading.receiver.read? line.chars = some reading) :
    ∃ last, ReceiverMethod.closing? .word ((line :: following).filter Line.isCode) = some last := by
  have hascending : Ascending (line :: following) := by
    have hall := ofText_ascending text
    rw [hlines] at hall
    exact hall.of_append_right
  obtain ⟨method, hmethod, hstart, hend⟩ := ReceiverMethod.exists_of_read? hread following
  cases hclosing : ReceiverMethod.closing? .word ((line :: following).filter Line.isCode) with
  | some last => exact ⟨last, rfl⟩
  | none =>
    -- the declaration would end with the last line, where its brackets are closed
    have hlast := ReceiverMethod.endLineOf_eq hread hcode hascending
    rw [hclosing, Option.none_or, ← hend] at hlast
    obtain ⟨last, hgetLast, hindex⟩ := Option.map_eq_some_iff.1 hlast.symm
    have hbetween : (ofText text).codeLinesBetween method.startLine method.endLine =
        (line :: following).filter Line.isCode := by
      rw [codeLinesBetween, hstart, codeLinesFrom_index hlines]
      refine List.filter_eq_self.2 fun other hother => decide_eq_true ?_
      rw [← hindex]
      exact hascending.le_of_getLast? hgetLast (List.mem_filter.1 hother).1
    have hmem : method ∈ (ofText text).receiverMethods := by
      rw [receiverMethods_eq, hlines]
      exact ReceiverMethod.mem_among_of_ofLine? hcode hmethod
    have hclosed := h.receiver_closed method hmem
    have hsublist := codeLinesBetween_sublist (ofText text) method.startLine method.endLine
    rw [h.fits.isClosed_netOver hsublist, h.fits.isClosed_netOver hsublist, hbetween] at hclosed
    obtain ⟨last, hfound⟩ := ReceiverMethod.exists_closing? (hascending.filter Line.isCode)
      (by simp [List.filter_cons_of_pos hcode]) hclosed.1 hclosed.2
    rw [hfound] at hclosing
    cases hclosing

/-- The scan of a self-contained text ends with no interface open. -/
theorem sweep_eq (h : SelfContained counting text lookahead) :
    sweep (Scanner.step lookahead) Scanner.initial (ofText text).lines =
      ⟨(ofText text).interfaces lookahead, none⟩ := by
  rcases Scanner.sweep_or_staysOpen ((ofText text).scans_interfaces lookahead)
      (fun other hother => (mem_codeLines.1 hother).2) [] with
    hsweep | ⟨before, line, body, opened, hlines, hopened, hstays, hmem⟩
  · rw [Scanner.sweep_filter]
    exact hsweep
  · -- an interface that is cut out to the end has an open bracket there
    exfalso
    have hascending := codeLines_ascending text
    rw [hlines] at hascending
    have hfrom : (ofText text).codeLinesFrom line.index = line :: body := by
      rw [codeLinesFrom, hlines, hascending.filter_ge]
    have hbetween : (ofText text).codeLinesBetween line.index ((ofText text).size - 1) =
        line :: body := by
      rw [codeLinesBetween, hfrom]
      refine List.filter_eq_self.2 fun other hother => decide_eq_true ?_
      have hlt : other.index < (ofText text).size :=
        codeLines_lt_size (by rw [hlines]; exact List.mem_append_right before hother)
      omega
    have hclosed := h.interface_closed _ hmem
    rw [h.fits.isClosed_netOver (codeLinesBetween_sublist _ _ _), Body.startLine_close_run hopened,
      Body.close_endLine, hbetween] at hclosed
    have hopen := hstays.isClosed_netOver (List.cons_ne_nil line body)
    rw [Int.zero_add, hclosed] at hopen
    cases hopen

/-- The lines of two texts of which the first is self-contained. -/
theorem lines_append (h : SelfContained counting text lookahead) (more : String) :
    (ofText (text ++ more)).lines =
      (ofText text).lines ++ (ofText more).lines.map (Line.renumber (· + (ofText text).size)) := by
  have hmore : (ofText more).lines.map (Line.renumber (· + (ofText text).size)) =
      markLines (0 + (ofText text).size) false (Text.splitLines more.toList) :=
    markLines_renumber false _ fun offset _ => by omega
  rw [hmore, ofText, String.toList_append, Text.splitLines_append more.toList h.ends_line,
    markLines_append, h.ends_in_code, size_ofText]
  rfl

/-- The interfaces of two texts of which the first is self-contained. -/
theorem interfaces_append (h : SelfContained counting text lookahead) (more : String) :
    (ofText (text ++ more)).interfaces lookahead =
      (ofText text).interfaces lookahead ++ ((ofText more).interfaces lookahead).map
        (Interface.renumber (· + (ofText text).size)) := by
  have hlines := lines_append h more
  have hmono : StrictMono (· + (ofText text).size) := fun _ _ hlt => Nat.add_lt_add_right hlt _
  have hbehind : (⟨(ofText text).interfaces lookahead, none⟩ : Scanner) =
      (Scanner.initial.renumber (· + (ofText text).size)).behind
        ((ofText text).interfaces lookahead) := by
    simp only [Scanner.behind, Scanner.renumber, Scanner.initial, List.map_nil, List.append_nil]
    rfl
  rw [interfaces, hlines, sweep_append, sweep_eq h, hbehind, Scanner.sweep_behind,
    Scanner.sweep_renumber hmono, Scanner.finish_behind]
  refine congrArg _ (Scanner.finish_renumber hmono _ fun hopen => ?_)
  -- the second text has a line, since an interface opened in it
  obtain ⟨body, hbody⟩ := Option.isSome_iff_exists.1 hopen
  have hline := ((sweep_sound more lookahead).body_sound body hbody).start_lt
  have hsize : (ofText (text ++ more)).size = (ofText text).size + (ofText more).size := by
    rw [size, hlines, List.length_append, List.length_map]
    rfl
  omega

/-- The methods with a receiver of two texts of which the first is self-contained. -/
theorem receiverMethods_append (h : SelfContained counting text lookahead) (more : String) :
    (ofText (text ++ more)).receiverMethods =
      (ofText text).receiverMethods ++ (ofText more).receiverMethods.map
        (ReceiverMethod.renumber (· + (ofText text).size)) := by
  have hlines := lines_append h more
  have hascending := ofText_ascending (text ++ more)
  rw [hlines] at hascending
  rw [receiverMethods_eq, receiverMethods_eq, receiverMethods_eq, hlines,
    ReceiverMethod.among_append hascending, ReceiverMethod.among_renumber]
  intro before line following reading hsplit hcode hread
  exact exists_closing_of_selfContained h hsplit hcode hread

/-- A self-contained text in front of another text: each keeps what it declares, and the line
numbers of the second move on by the number of lines of the first. -/
theorem outline_append (h : SelfContained counting text lookahead) (more : String) :
    (ofText (text ++ more)).outline lookahead =
      { interfaces := (ofText text).interfaces lookahead ++
          ((ofText more).interfaces lookahead).map
            (Interface.renumber (· + (ofText text).size))
        receiverMethods := (ofText text).receiverMethods ++
          (ofText more).receiverMethods.map
            (ReceiverMethod.renumber (· + (ofText text).size)) } := by
  rw [outline, interfaces_append h more, receiverMethods_append h more]

/-- An interface with a wrapped signature, and a method with a receiver whose body spans lines. -/
def closedText : String :=
  "type R interface \x7b\n\tRead()\n\n\t(error)\n\x7d\nfunc (t *T) Read() error \x7b\n\x7d // )\n"

/-- A signature with nothing behind it, and brackets that were never opened. -/
def followingText : String :=
  "\t(int)\n\x7d)\ntype S interface \x7b\n\tClose("

theorem closedText_selfContained : SelfContained .exact closedText 2 where
  fits := Or.inr (by decide)
  ends_line := by decide +kernel
  ends_in_code := by decide +kernel
  interface_closed := by decide +kernel
  receiver_closed := by decide +kernel

theorem outline_append_following :
    SelfContained .exact closedText 2 ∧
      (ofText (closedText ++ followingText)).outline 2 =
        { interfaces := (ofText closedText).interfaces 2 ++
            ((ofText followingText).interfaces 2).map
              (Interface.renumber (· + (ofText closedText).size))
          receiverMethods := (ofText closedText).receiverMethods ++
            (ofText followingText).receiverMethods.map
              (ReceiverMethod.renumber (· + (ofText closedText).size)) } :=
  ⟨closedText_selfContained, outline_append closedText_selfContained followingText⟩

end Document

end Wayfinder
