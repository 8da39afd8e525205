import Wayfinder.Proofs.Interface.Invariant

/-!
# How the body of an interface is cut into signatures

A signature is read with a draft that passes from line to line.  This module follows
a draft through its stages and describes, by counts of round brackets alone, which
lines it takes.

* `Body.skim` reads lines for signatures only, and `Body.outcome` is what the
  interface reports if it closes behind them.  The curly brackets play no part in it
  (`Body.close_run_methods`).
* `Spans` says which lines make a signature: those up to the closing bracket of its
  parameters and, if nothing follows that bracket and a result list starts soon
  enough, those up to the closing bracket of the results.
* `Reads` derives the signatures of a body, one after the other.
* `Body.reads_of_outcome` is the run lemma: what an interface reports is derived from
  the lines of its body.
-/

namespace Wayfinder

/-! ## Which lines make a signature -/

/-- A result list starts behind fewer blank lines than the lookahead allows. -/
def Wrapped (lookahead : Nat) (lines : List Line) : Prop :=
  ∃ blanks next more, lines = blanks ++ next :: more ∧ (∀ line ∈ blanks, line.isBlank = true) ∧
    blanks.length < lookahead ∧ next.trimmed.head? = some '('

theorem Line.not_isBlank_of_head?_trimmed {line : Line} {c : Char}
    (h : line.trimmed.head? = some c) : ¬ line.isBlank = true := by
  intro hblank
  rw [List.isEmpty_iff.1 hblank] at h
  cases h

/-- The lines of a signature, the lines behind it, and its last line. -/
inductive Spans (lookahead : Nat) : List Line → List Line → Line → Prop where
  /-- The parameters do not close. -/
  | unclosed {span : List Line} {last : Line} (hstays : Bracket.parens.StaysOpen 0 span)
      (hlast : span.getLast? = some last) : Spans lookahead span [] last
  /-- The parameters close, with code behind them. -/
  | behind {span rest : List Line} {last : Line}
      (hcloses : Bracket.parens.ClosesOn 0 span last)
      (htail : tailAfterLastParen last.chars ≠ []) : Spans lookahead span rest last
  /-- The parameters close, and no result list follows. -/
  | alone {span rest : List Line} {last : Line}
      (hcloses : Bracket.parens.ClosesOn 0 span last)
      (htail : tailAfterLastParen last.chars = []) (hrest : ¬ Wrapped lookahead rest) :
      Spans lookahead span rest last
  /-- A result list follows and closes. -/
  | wrapped {parameters blanks results rest : List Line} {closing next last : Line}
      (hcloses : Bracket.parens.ClosesOn 0 parameters closing)
      (htail : tailAfterLastParen closing.chars = [])
      (hblanks : ∀ line ∈ blanks, line.isBlank = true) (hbudget : blanks.length < lookahead)
      (hnext : next.trimmed.head? = some '(')
      (hresults : Bracket.parens.ClosesOn 0 (next :: results) last) :
      Spans lookahead (parameters ++ (blanks ++ next :: results)) rest last
  /-- A result list follows and does not close. -/
  | wrappedUnclosed {parameters blanks results : List Line} {closing next last : Line}
      (hcloses : Bracket.parens.ClosesOn 0 parameters closing)
      (htail : tailAfterLastParen closing.chars = [])
      (hblanks : ∀ line ∈ blanks, line.isBlank = true) (hbudget : blanks.length < lookahead)
      (hnext : next.trimmed.head? = some '(')
      (hresults : Bracket.parens.StaysOpen 0 (next :: results))
      (hlast : (next :: results).getLast? = some last) :
      Spans lookahead (parameters ++ (blanks ++ next :: results)) [] last

theorem Spans.getLast? {lookahead : Nat} {span rest : List Line} {last : Line}
    (h : Spans lookahead span rest last) : span.getLast? = some last := by
  cases h with
  | unclosed _ hlast => exact hlast
  | behind hcloses _ => exact hcloses.getLast?
  | alone hcloses _ _ => exact hcloses.getLast?
  | wrapped _ _ _ _ _ hresults =>
    have hlast := hresults.getLast?
    simp only [List.getLast?_append, hlast, Option.some_or]
  | wrappedUnclosed _ _ _ _ _ _ hlast =>
    simp only [List.getLast?_append, hlast, Option.some_or]

/-- The signatures of the body of an interface. -/
inductive Reads (lookahead : Nat) (owner : String) : List Line → List Signature → Prop where
  | done : Reads lookahead owner [] []
  | skip {line : Line} {rest : List Line} {signatures : List Signature}
      (hline : Draft.ofLine? line = none) (hrest : Reads lookahead owner rest signatures) :
      Reads lookahead owner (line :: rest) signatures
  | signature {line last : Line} {inner rest : List Line} {draft : Draft}
      {signatures : List Signature} (hline : Draft.ofLine? line = some draft)
      (hspans : Spans lookahead (line :: inner) rest last)
      (hrest : Reads lookahead owner rest signatures) :
      Reads lookahead owner (line :: inner ++ rest)
        (draft.signature owner last.index :: signatures)

namespace Body

/-! ## Reading for signatures only -/

/-- The interface after several lines that are read for signatures only. -/
def skim (body : Body) (lines : List Line) : Body :=
  lines.foldl Body.readSignatures body

@[simp] theorem skim_nil (body : Body) : body.skim [] = body := rfl

@[simp] theorem skim_cons (body : Body) (line : Line) (lines : List Line) :
    body.skim (line :: lines) = (body.readSignatures line).skim lines := rfl

theorem skim_append (body : Body) (lines more : List Line) :
    body.skim (lines ++ more) = (body.skim lines).skim more :=
  List.foldl_append

/-- The signatures of an interface that closes behind some lines. -/
def outcome (body : Body) (lines : List Line) (endLine : Nat) : List Signature :=
  ((body.skim lines).close endLine).methods

theorem outcome_cons (body : Body) (line : Line) (lines : List Line) (endLine : Nat) :
    body.outcome (line :: lines) endLine = (body.readSignatures line).outcome lines endLine :=
  rfl

theorem outcome_append (body : Body) (lines more : List Line) (endLine : Nat) :
    body.outcome (lines ++ more) endLine = (body.skim lines).outcome more endLine := by
  rw [outcome, skim_append, outcome]

theorem skim_withBraces (body : Body) (braces : Depth) (lines : List Line) :
    (body.withBraces braces).skim lines = (body.skim lines).withBraces braces := by
  induction lines generalizing body with
  | nil => rfl
  | cons line more ih => rw [skim_cons, skim_cons, readSignatures_withBraces, ih]

theorem exists_run_eq (body : Body) (lines : List Line) :
    ∃ braces, body.run lines = (body.skim lines).withBraces braces := by
  induction lines generalizing body with
  | nil => exact ⟨body.braces, rfl⟩
  | cons line more ih =>
    obtain ⟨braces, hrun⟩ := ih (body.read line)
    refine ⟨braces, ?_⟩
    have hread : body.read line = (body.readSignatures line).withBraces
        ((body.readSignatures line).braces.feed line.chars) := rfl
    rw [run_cons, hrun, hread, skim_withBraces]
    rfl

/-- The signatures of an interface do not depend on its curly brackets. -/
theorem close_run_methods (body : Body) (lines : List Line) (endLine : Nat) :
    ((body.run lines).close endLine).methods = body.outcome lines endLine := by
  obtain ⟨braces, hrun⟩ := body.exists_run_eq lines
  rw [hrun, outcome]
  have hdraft : ((body.skim lines).withBraces braces).draft = (body.skim lines).draft := rfl
  simp only [close_eq, hdraft]
  cases (body.skim lines).draft with
  | none => rfl
  | some draft =>
    dsimp only
    rw [report_withBraces]
    rfl

end Body

/-! ## The stages of a draft -/

/-- A draft in another stage, with its round brackets at a count behind a line. -/
def Draft.moved (draft : Draft) (stage : Stage) (count : Int) (lastLine : Nat) : Draft :=
  { draft with stage := stage, parens := .ofCount .parens count, lastLine := lastLine }

theorem Draft.isBalanced_moved (draft : Draft) (stage : Stage) (count : Int) (lastLine : Nat) :
    (draft.moved stage count lastLine).parens.isBalanced = Counting.word.isClosed count := rfl

theorem Draft.eq_moved_of_ofLine? {line : Line} {draft : Draft}
    (h : Draft.ofLine? line = some draft) :
    draft = draft.moved .parameters (0 + Bracket.parens.net line.chars) line.index := by
  obtain ⟨reading, name, _, _, rfl⟩ := Draft.ofLine?_eq_some_iff.1 h
  rw [Draft.moved, ← Depth.feed_parens]
  rfl

namespace Body

variable {body : Body} {draft : Draft} {line last next : Line} {lines : List Line} {stage : Stage}
  {count : Int} {lastLine closedAt budget endLine : Nat}

/-- A report reads nothing of a draft but its name and where it starts. -/
theorem report_moved (body : Body) (draft : Draft) (stage : Stage) (count : Int)
    (lastLine endLine : Nat) :
    body.report (draft.moved stage count lastLine) endLine = body.report draft endLine := rfl

theorem report_keep (body : Body) (kept draft : Draft) (endLine : Nat) :
    (body.keep kept).report draft endLine = body.report draft endLine := by
  unfold report keep
  split <;> rfl

theorem await_keep (body : Body) (kept draft : Draft) (closedAt budget : Nat) :
    (body.keep kept).await draft closedAt budget = body.await draft closedAt budget := by
  rw [await_eq, await_eq, report_keep]
  rfl

theorem await_moved (body : Body) (draft : Draft) (stage : Stage) (count : Int)
    (lastLine closedAt budget : Nat) :
    body.await (draft.moved stage count lastLine) closedAt budget =
      if budget = 0 then body.report draft closedAt
      else body.keep (draft.moved (.between closedAt budget) count lastLine) := rfl

/-- Behind a line of the parameters, a draft whose brackets are open is kept, one with code
behind its closing bracket is reported, and any other waits for results. -/
theorem afterParameters_moved (body : Body) (draft : Draft) (count : Int) (line : Line) :
    body.afterParameters (draft.moved .parameters count line.index) line =
      if Counting.word.isClosed count = false then
        body.keep (draft.moved .parameters count line.index)
      else if tailAfterLastParen line.chars = [] then
        body.await (draft.moved .parameters count line.index) line.index body.lookahead
      else body.report draft line.index := by
  rw [afterParameters_eq, Draft.isBalanced_moved]
  cases Counting.word.isClosed count with
  | false => rfl
  | true =>
    simp only [List.isEmpty_iff]
    rfl

theorem readSignatures_parameters (body : Body) (draft : Draft) (count : Int) (lastLine : Nat)
    (line : Line) :
    (body.keep (draft.moved .parameters count lastLine)).readSignatures line =
      body.afterParameters
        (draft.moved .parameters (count + Bracket.parens.net line.chars) line.index) line := by
  have hread : (body.keep (draft.moved .parameters count lastLine)).readSignatures line =
      (body.keep (draft.moved .parameters count lastLine)).afterParameters
        (draft.moved .parameters (count + Bracket.parens.net line.chars) line.index) line := by
    simp only [Draft.moved, ← Depth.feed_parens]
    rfl
  rw [hread, afterParameters_moved, report_keep, await_keep, afterParameters_moved]
  rfl

/-- Behind a line of the results, a draft whose brackets are open is kept, and any other is
reported. -/
theorem afterResults_moved (body : Body) (kept draft : Draft) (stage : Stage) (count : Int)
    (line : Line) :
    (body.keep kept).afterResults (draft.moved stage count line.index) line =
      if Counting.word.isClosed count = false then body.keep (draft.moved .results count line.index)
      else body.report draft line.index := by
  rw [afterResults_eq, report_keep, Draft.isBalanced_moved]
  cases Counting.word.isClosed count <;> rfl

theorem readSignatures_results (body : Body) (draft : Draft) (count : Int) (lastLine : Nat)
    (line : Line) :
    (body.keep (draft.moved .results count lastLine)).readSignatures line =
      if Counting.word.isClosed (count + Bracket.parens.net line.chars) = false then
        body.keep (draft.moved .results (count + Bracket.parens.net line.chars) line.index)
      else body.report draft line.index := by
  rw [← afterResults_moved body (draft.moved .results count lastLine) draft .results]
  simp only [Draft.moved, ← Depth.feed_parens]
  rfl

/-- Between parameters and results a blank line spends the budget, a parenthesis starts the
results, and any other line ends the signature and is read afresh. -/
theorem readSignatures_between (body : Body) (draft : Draft) (closedAt budget : Nat) (count : Int)
    (lastLine : Nat) (line : Line) :
    (body.keep (draft.moved (.between closedAt budget) count lastLine)).readSignatures line =
      if line.isBlank = true then
        body.await (draft.moved (.between closedAt budget) count lastLine) closedAt (budget - 1)
      else if line.trimmed.head? = some '(' then
        (body.keep (draft.moved .results 0 lastLine)).readSignatures line
      else (body.report draft closedAt).begin line := by
  rw [readSignatures_results, ← afterResults_moved body
    (draft.moved (.between closedAt budget) count lastLine) draft (.between closedAt budget)]
  simp only [readSignatures_eq, keep, resume_eq, Draft.moved, ← Depth.feed_parens]
  split_ifs
  · exact await_keep body _ _ closedAt (budget - 1)
  · rfl
  · exact congrArg (Body.begin · line) (report_keep body _ _ closedAt)

/-! ## A draft along several lines -/

/-- While its round brackets stay open, a draft takes line after line. -/
theorem skim_staysOpen (hstage : stage = .parameters ∨ stage = .results)
    (hstays : Bracket.parens.StaysOpen count lines) :
    (body.keep (draft.moved stage count lastLine)).skim lines =
      body.keep (draft.moved stage (count + Bracket.parens.netOver lines)
        ((lines.getLast?.map Line.index).getD lastLine)) := by
  induction lines generalizing count lastLine with
  | nil => simp
  | cons line more ih =>
    have hread : (body.keep (draft.moved stage count lastLine)).readSignatures line =
        body.keep (draft.moved stage (count + Bracket.parens.net line.chars) line.index) := by
      rcases hstage with rfl | rfl
      · rw [readSignatures_parameters, afterParameters_moved, if_pos hstays.1]
      · rw [readSignatures_results, if_pos hstays.1]
    rw [skim_cons, hread, ih hstays.2, Bracket.netOver_cons, Int.add_assoc, List.getLast?_cons]
    cases more.getLast? <;> rfl

/-- When its parameters close, a draft is reported or waits for results. -/
theorem skim_parameters (hcloses : Bracket.parens.ClosesOn count lines last) :
    (body.keep (draft.moved .parameters count lastLine)).skim lines =
      if tailAfterLastParen last.chars = [] then
        body.await (draft.moved .parameters (count + Bracket.parens.netOver lines) last.index)
          last.index body.lookahead
      else body.report draft last.index := by
  obtain ⟨before, rfl, hstays, hclosed⟩ := hcloses
  have hcount : count + Bracket.parens.netOver (before ++ [last]) =
      count + Bracket.parens.netOver before + Bracket.parens.net last.chars := by
    simp [Int.add_assoc]
  rw [skim_append, skim_staysOpen (Or.inl rfl) hstays, skim_cons, skim_nil,
    readSignatures_parameters, afterParameters_moved, ← hcount, hclosed]
  rfl

/-- When its results close, a draft is reported. -/
theorem skim_results (hcloses : Bracket.parens.ClosesOn count lines last) :
    (body.keep (draft.moved .results count lastLine)).skim lines =
      body.report draft last.index := by
  obtain ⟨before, rfl, hstays, hclosed⟩ := hcloses
  have hcount : count + Bracket.parens.netOver (before ++ [last]) =
      count + Bracket.parens.netOver before + Bracket.parens.net last.chars := by
    simp [Int.add_assoc]
  rw [skim_append, skim_staysOpen (Or.inr rfl) hstays, skim_cons, skim_nil,
    readSignatures_results, ← hcount, hclosed]
  rfl

/-! ## What is reported behind several lines -/

theorem outcome_nil_of_draft_none (hnone : body.draft = none) (endLine : Nat) :
    body.outcome [] endLine = body.methods := by
  simp [outcome, close_eq, hnone]

/-- A line that starts no signature does not change an interface without a draft. -/
theorem readSignatures_of_ofLine?_none (hnone : body.draft = none)
    (hline : Draft.ofLine? line = none) : body.readSignatures line = body := by
  simp only [readSignatures_eq, hnone, begin_eq, hline]

theorem readSignatures_of_draft_none (hnone : body.draft = none) (line : Line) :
    body.readSignatures line = body.begin line := by
  simp only [readSignatures_eq, hnone]

/-- A draft that stands when the interface closes is reported where it would end. -/
theorem outcome_keep_nil (hle : draft.endLine ≤ endLine) :
    (body.keep draft).outcome [] endLine =
      (body.report draft draft.endLine).outcome [] endLine := by
  rw [outcome_nil_of_draft_none (body.report_draft draft draft.endLine)]
  have hmin : min draft.endLine endLine = draft.endLine := Nat.min_eq_left hle
  have hclose : ((body.keep draft).close endLine).methods =
      ((body.keep draft).report draft (min draft.endLine endLine)).methods := rfl
  rw [outcome, skim_nil, hclose, hmin, report_keep]

/-- A draft whose brackets never close is reported with the last line. -/
theorem outcome_staysOpen (hstage : stage = .parameters ∨ stage = .results)
    (hstays : Bracket.parens.StaysOpen count lines) (hlast : lines.getLast? = some last)
    (hle : last.index ≤ endLine) :
    (body.keep (draft.moved stage count lastLine)).outcome lines endLine =
      (body.report draft last.index).outcome [] endLine := by
  have hend : ∀ count, (draft.moved stage count last.index).endLine = last.index := by
    intro count
    rcases hstage with rfl | rfl <;> rfl
  rw [← List.append_nil lines, outcome_append, skim_staysOpen hstage hstays, hlast,
    Option.map_some, Option.getD_some, outcome_keep_nil (by rw [hend]; exact hle), hend,
    report_moved]

/-- A blank line starts no signature. -/
theorem ofLine?_of_isBlank (hblank : line.isBlank = true) : Draft.ofLine? line = none := by
  rw [Draft.ofLine?_eq_none_iff]
  cases hread : Heading.signature.read? line.chars with
  | none => rfl
  | some reading =>
    rw [Line.isBlank_of_signature hread] at hblank
    cases hblank

/-- A draft that waits for results in vain is reported where its parameters closed, and the lines
it passed are as good as unread. -/
theorem outcome_await_alone (hle : closedAt ≤ endLine) (hnot : ¬ Wrapped budget lines) :
    (body.await (draft.moved stage count lastLine) closedAt budget).outcome lines endLine =
      (body.report draft closedAt).outcome lines endLine := by
  induction lines generalizing budget stage with
  | nil =>
    rw [await_moved]
    split_ifs
    · rfl
    · exact outcome_keep_nil hle
  | cons line more ih =>
    rw [await_moved]
    split_ifs with hbudget
    · rfl
    · have hidle := body.report_draft draft closedAt
      rw [outcome_cons, outcome_cons, readSignatures_between, readSignatures_of_draft_none hidle]
      split_ifs with hblank hparen
      · rw [← readSignatures_of_draft_none hidle,
          readSignatures_of_ofLine?_none hidle (ofLine?_of_isBlank hblank)]
        refine ih fun hwrapped => hnot ?_
        obtain ⟨blanks, next, rest, rfl, hblanks, hlength, hnext⟩ := hwrapped
        refine ⟨line :: blanks, next, rest, rfl, ?_, ?_, hnext⟩
        · exact List.forall_mem_cons.2 ⟨hblank, hblanks⟩
        · rw [List.length_cons]
          omega
      · exact absurd ⟨[], line, more, rfl, by simp, Nat.pos_of_ne_zero hbudget, hparen⟩ hnot
      · rfl

/-- A draft that waits for results reads them when they start. -/
theorem outcome_await_wrapped {blanks more : List Line}
    (hblanks : ∀ line ∈ blanks, line.isBlank = true) (hbudget : blanks.length < budget)
    (hnext : next.trimmed.head? = some '(') :
    (body.await (draft.moved stage count lastLine) closedAt budget).outcome
        (blanks ++ next :: more) endLine =
      (body.keep (draft.moved .results 0 lastLine)).outcome (next :: more) endLine := by
  induction blanks generalizing budget stage with
  | nil =>
    rw [List.length_nil] at hbudget
    rw [await_moved, if_neg (by omega), List.nil_append, outcome_cons, outcome_cons,
      readSignatures_between, if_neg (Line.not_isBlank_of_head?_trimmed hnext), if_pos hnext]
  | cons line blanks ih =>
    obtain ⟨hblank, hblanks⟩ := List.forall_mem_cons.1 hblanks
    rw [List.length_cons] at hbudget
    rw [await_moved, if_neg (by omega), List.cons_append, outcome_cons, readSignatures_between,
      if_pos hblank]
    exact ih hblanks (by omega)

/-! ## The interface follows the cut -/

/-- A line that starts a signature is read as the first line of its parameters. -/
theorem outcome_of_ofLine? (hnone : body.draft = none) (hline : Draft.ofLine? line = some draft)
    (lines : List Line) (endLine : Nat) :
    body.outcome (line :: lines) endLine =
      (body.keep (draft.moved .parameters 0 line.index)).outcome (line :: lines) endLine := by
  rw [outcome_cons, outcome_cons, readSignatures_of_draft_none hnone, readSignatures_parameters,
    ← Draft.eq_moved_of_ofLine? hline]
  simp only [begin_eq, hline]

/-- A line that starts a signature takes the lines of the signature, and is reported with the
last of them. -/
theorem exists_spans (hnone : body.draft = none) (hline : Draft.ofLine? line = some draft)
    {more : List Line} (hle : ∀ other ∈ line :: more, other.index ≤ endLine) :
    ∃ inner rest last, more = inner ++ rest ∧ Spans body.lookahead (line :: inner) rest last ∧
      body.outcome (line :: more) endLine =
        (body.report draft last.index).outcome rest endLine := by
  rw [outcome_of_ofLine? hnone hline]
  rcases Bracket.staysOpen_or_closesOn .parens 0 line more with
    hstays | ⟨inner, rest, closing, rfl, hcloses⟩
  · -- the parameters never close
    have hlast := List.getLast?_eq_some_getLast (List.cons_ne_nil line more)
    refine ⟨more, [], _, (List.append_nil more).symm, .unclosed hstays hlast, ?_⟩
    exact outcome_staysOpen (Or.inl rfl) hstays hlast (hle _ (List.mem_of_getLast? hlast))
  · rw [← List.cons_append, outcome_append, skim_parameters hcloses]
    by_cases htail : tailAfterLastParen closing.chars = []
    · rw [if_pos htail]
      by_cases hwrapped : Wrapped body.lookahead rest
      · obtain ⟨blanks, next, behind, rfl, hblanks, hbudget, hnext⟩ := hwrapped
        rw [outcome_await_wrapped hblanks hbudget hnext]
        rcases Bracket.staysOpen_or_closesOn .parens 0 next behind with
          hstays | ⟨results, rest, last, rfl, hresults⟩
        · -- the results never close
          have hlast := List.getLast?_eq_some_getLast (List.cons_ne_nil next behind)
          refine ⟨inner ++ (blanks ++ next :: behind), [], _, (List.append_nil _).symm,
            .wrappedUnclosed hcloses htail hblanks hbudget hnext hstays hlast, ?_⟩
          refine outcome_staysOpen (Or.inr rfl) hstays hlast (hle _ ?_)
          have hmem := List.mem_of_getLast? hlast
          exact List.mem_cons_of_mem line
            (List.mem_append_right inner (List.mem_append_right blanks hmem))
        · refine ⟨inner ++ (blanks ++ next :: results), rest, last, by simp,
            .wrapped hcloses htail hblanks hbudget hnext hresults, ?_⟩
          rw [← List.cons_append, outcome_append, skim_results hresults]
      · refine ⟨inner, rest, closing, rfl, .alone hcloses htail hwrapped, ?_⟩
        have hmem := List.mem_of_getLast? hcloses.getLast?
        exact outcome_await_alone (hle closing (List.mem_append_left rest hmem)) hwrapped
    · rw [if_neg htail]
      exact ⟨inner, rest, closing, rfl, .behind hcloses htail, rfl⟩

/-- An interface without a draft reports the signatures of the lines it is given. -/
theorem reads_of_outcome {next : Nat} (hrecorded : body.Recorded next) (hnone : body.draft = none)
    (hlines : Ascending lines) (hnext : ∀ line ∈ lines, next ≤ line.index)
    (hle : ∀ line ∈ lines, line.index ≤ endLine) :
    ∃ signatures, body.outcome lines endLine = body.methods ++ signatures ∧
      Reads body.lookahead body.name lines signatures := by
  -- a signature takes several lines at once, so the induction is on the number of lines
  induction hlength : lines.length using Nat.strong_induction_on generalizing body lines next with
  | _ length ih =>
    subst hlength
    cases lines with
    | nil => exact ⟨[], by rw [outcome_nil_of_draft_none hnone, List.append_nil], .done⟩
    | cons line more =>
      cases hline : Draft.ofLine? line with
      | none =>
        rw [outcome_cons, readSignatures_of_ofLine?_none hnone hline]
        obtain ⟨signatures, houtcome, hreads⟩ := ih more.length (Nat.lt_succ_self _) hrecorded hnone
          hlines.tail (List.forall_mem_cons.1 hnext).2 (List.forall_mem_cons.1 hle).2 rfl
        exact ⟨signatures, houtcome, .skip hline hreads⟩
      | some draft =>
        obtain ⟨inner, rest, last, rfl, hspans, houtcome⟩ := exists_spans hnone hline hle
        rw [← List.cons_append] at hlines hnext hle houtcome ⊢
        have hmem := List.mem_of_getLast? hspans.getLast?
        have hstart : draft.line = line.index := (reaches_of_ofLine? hline).2.1
        have hend : draft.line ≤ last.index :=
          hstart ▸ hlines.of_append_left.le_of_mem_cons hmem
        have hahead : body.Ahead draft :=
          hrecorded.ahead_of_le (hstart ▸ hnext line (List.mem_cons_self ..))
        have hbelow : next ≤ last.index + 1 :=
          Nat.le_succ_of_le (hnext last (List.mem_append_left rest hmem))
        have hsame := body.sameHeading_report draft last.index
        have hless : rest.length < (line :: (inner ++ rest)).length := by
          rw [List.length_cons, List.length_append]
          omega
        obtain ⟨signatures, hrest, hreads⟩ := ih rest.length hless
          ((hrecorded.mono hbelow).report hahead hend (Nat.lt_succ_self _))
          (body.report_draft draft last.index) hlines.of_append_right
          (fun other hother => hlines.lt_of_append hmem hother)
          (fun other hother => hle other (List.mem_append_right _ hother)) rfl
        rw [hsame.lookahead_eq, hsame.name_eq] at hreads
        refine ⟨draft.signature body.name last.index :: signatures, ?_,
          .signature hline hspans hreads⟩
        rw [houtcome, hrest, hrecorded.report_eq hahead hend]
        simp

end Body

/-! ## What a cut says of each line -/

namespace Reads

variable {lookahead : Nat} {owner : String} {lines : List Line} {signatures : List Signature}

/-- Every signature stands on a line that starts one, and ends where the lines from there say. -/
theorem exists_spans_of_mem (h : Reads lookahead owner lines signatures) {method : Signature}
    (hmethod : method ∈ signatures) :
    ∃ before line inner rest last draft, lines = before ++ (line :: inner ++ rest) ∧
      Draft.ofLine? line = some draft ∧ Spans lookahead (line :: inner) rest last ∧
      method = draft.signature owner last.index := by
  induction h with
  | done => cases hmethod
  | @skip line rest signatures hline _ ih =>
    obtain ⟨before, start, inner, behind, last, draft, rfl, hfacts⟩ := ih hmethod
    exact ⟨line :: before, start, inner, behind, last, draft, rfl, hfacts⟩
  | @signature line last inner rest draft signatures hline hspans _ ih =>
    rcases List.mem_cons.1 hmethod with rfl | hmethod
    · exact ⟨[], line, inner, rest, last, draft, rfl, hline, hspans, rfl⟩
    · obtain ⟨before, start, body, behind, final, other, rfl, hfacts⟩ := ih hmethod
      exact ⟨line :: inner ++ before, start, body, behind, final, other, by simp, hfacts⟩

/-- Every line that starts a signature lies in one that is read, and one that lies in none that
starts before it is read itself. -/
theorem exists_mem_of_ofLine? (h : Reads lookahead owner lines signatures)
    (hlines : Ascending lines) {line : Line} (hline : line ∈ lines) {draft : Draft}
    (hdraft : Draft.ofLine? line = some draft) :
    ∃ method ∈ signatures, method.line ≤ line.index ∧ line.index ≤ method.endLine ∧
      (method.line = line.index → method.name = draft.name) := by
  induction h with
  | done => cases hline
  | @skip first rest signatures hfirst _ ih =>
    rcases List.mem_cons.1 hline with rfl | hline
    · rw [hfirst] at hdraft
      cases hdraft
    · exact ih hlines.tail hline
  | @signature first last inner rest start signatures hfirst hspans _ ih =>
    rcases List.mem_append.1 hline with hline | hline
    · have hstart : (start.signature owner last.index).line = first.index :=
        (Body.reaches_of_ofLine? hfirst).2.1
      refine ⟨start.signature owner last.index, List.mem_cons_self .., ?_, ?_, ?_⟩
      · rw [hstart]
        exact hlines.of_append_left.le_of_mem_cons hline
      · exact hlines.of_append_left.le_of_getLast? hspans.getLast? hline
      · intro heq
        have hsame : first = line := hlines.eq_of_index_eq (List.mem_cons_self ..)
          (List.mem_append_left rest hline) (hstart.symm.trans heq)
        rw [hsame, hdraft] at hfirst
        rw [Option.some.inj hfirst]
        rfl
    · obtain ⟨method, hmethod, hfacts⟩ := ih hlines.of_append_right hline
      exact ⟨method, List.mem_cons_of_mem _ hmethod, hfacts⟩

end Reads

end Wayfinder
