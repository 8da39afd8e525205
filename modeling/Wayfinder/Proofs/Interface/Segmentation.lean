import Wayfinder.Proofs.Interface.Invariant

/-!
# How a document is cut into interfaces

The scanner finds the end of an interface by its curly brackets alone.  This module
describes the cut of a document into interfaces by counts of brackets over its code
lines, and shows that the scanner makes that cut.

* `Scans` derives the interfaces of some code lines: a line that opens none is passed
  over, and a line that opens one takes the lines up to the first at which the curly
  brackets opened since then are closed, or all lines if there is none.
* `Scanner.scans_of_sweep` is the run lemma: a sweep ends with what is derived.
* `Piece` is the part of the lines that one interface is made of.
* `Scanner.cut` is what decides how a scanner cuts.  The lookahead is no part of it, so
  that two scans with different lookaheads cut alike (`Scanner.cut_sweep`).
* `Document.Segmented` says that some interfaces are exactly those that the headings
  and the curly brackets of a document make.
-/

namespace Wayfinder

/-- The interfaces that are cut out of the code lines of a document of the given size. -/
inductive Scans (lookahead size : Nat) : List Line → List Interface → Prop where
  | done : Scans lookahead size [] []
  | skip {line : Line} {rest : List Line} {interfaces : List Interface}
      (hline : Body.ofLine? lookahead line = none)
      (hrest : Scans lookahead size rest interfaces) :
      Scans lookahead size (line :: rest) interfaces
  | closed {line last : Line} {body rest : List Line} {opened : Body}
      {interfaces : List Interface} (hline : Body.ofLine? lookahead line = some opened)
      (hcloses : Bracket.braces.ClosesOn 0 (line :: body) last)
      (hrest : Scans lookahead size rest interfaces) :
      Scans lookahead size (line :: body ++ rest)
        ((opened.run body).close last.index :: interfaces)
  | unclosed {line : Line} {body : List Line} {opened : Body}
      (hline : Body.ofLine? lookahead line = some opened)
      (hstays : Bracket.braces.StaysOpen 0 (line :: body)) :
      Scans lookahead size (line :: body) [(opened.run body).close (size - 1)]

/-! ## The scanner follows the cut -/

theorem sweep_cons {σ : Type} (step : σ → Line → σ) (state : σ) (line : Line)
    (lines : List Line) : sweep step state (line :: lines) = sweep step (step state line) lines :=
  rfl

theorem sweep_append {σ : Type} (step : σ → Line → σ) (state : σ) (lines more : List Line) :
    sweep step state (lines ++ more) = sweep step (sweep step state lines) more :=
  List.foldl_append

namespace Scanner

variable {lookahead : Nat} {found : List Interface} {body opened : Body} {line last : Line}
  {lines : List Line} {count : Int}

/-- Comment lines do not reach the scanner. -/
theorem sweep_filter (lookahead : Nat) (scanner : Scanner) (lines : List Line) :
    sweep (step lookahead) scanner lines =
      sweep (step lookahead) scanner (lines.filter fun line => !line.isComment) := by
  induction lines generalizing scanner with
  | nil => rfl
  | cons line more ih =>
    rw [sweep_cons, ih]
    by_cases hcomment : line.isComment = true
    · rw [List.filter_cons_of_neg (by simp [hcomment]), step_eq, if_pos hcomment]
    · rw [List.filter_cons_of_pos (by simp [hcomment])]
      rfl

/-- A line adds its net count to the curly brackets of the interface it is read by. -/
theorem braces_read (hbraces : body.braces = .ofCount .braces count) (line : Line) :
    (body.read line).braces = .ofCount .braces (count + Bracket.braces.net line.chars) := by
  rw [body.read_braces, hbraces, Depth.feed_braces]

/-- A line inside an interface is read by it, and settles it. -/
theorem step_body (hcode : line.isComment = false)
    (hbraces : body.braces = .ofCount .braces count) :
    step lookahead ⟨found, some body⟩ line =
      if Counting.word.isClosed (count + Bracket.braces.net line.chars) then
        ⟨found ++ [(body.read line).close line.index], none⟩
      else ⟨found, some (body.read line)⟩ := by
  simp [step_eq, settle_eq, hcode, braces_read hbraces, Depth.isBalanced_ofCount]

theorem braces_of_ofLine? (hline : Body.ofLine? lookahead line = some opened) :
    opened.braces = .ofCount .braces (0 + Bracket.braces.net line.chars) := by
  obtain ⟨reading, name, _, _, rfl⟩ := Body.ofLine?_eq_some_iff.1 hline
  exact Depth.feed_braces 0 line.chars

/-- A line that opens an interface settles it at once. -/
theorem step_opening (hcode : line.isComment = false)
    (hline : Body.ofLine? lookahead line = some opened) :
    step lookahead ⟨found, none⟩ line =
      if Counting.word.isClosed (0 + Bracket.braces.net line.chars) then
        ⟨found ++ [opened.close line.index], none⟩
      else ⟨found, some opened⟩ := by
  simp [step_eq, settle_eq, hcode, hline, braces_of_ofLine? hline, Depth.isBalanced_ofCount]

/-- While the curly brackets stay open, the interface reads line after line. -/
theorem sweep_staysOpen (hcode : ∀ line ∈ lines, line.isComment = false)
    (hbraces : body.braces = .ofCount .braces count)
    (hstays : Bracket.braces.StaysOpen count lines) :
    sweep (step lookahead) ⟨found, some body⟩ lines = ⟨found, some (body.run lines)⟩ := by
  induction lines generalizing body count with
  | nil => rfl
  | cons line more ih =>
    have hstep : step lookahead ⟨found, some body⟩ line = ⟨found, some (body.read line)⟩ := by
      rw [step_body (hcode line (List.mem_cons_self ..)) hbraces, hstays.1]
      rfl
    rw [sweep_cons, hstep]
    exact ih (fun later hlater => hcode later (List.mem_cons_of_mem line hlater))
      (braces_read hbraces line) hstays.2

/-- When the curly brackets close, the interface is found. -/
theorem sweep_closesOn (hcode : ∀ line ∈ lines, line.isComment = false)
    (hbraces : body.braces = .ofCount .braces count)
    (hcloses : Bracket.braces.ClosesOn count lines last) :
    sweep (step lookahead) ⟨found, some body⟩ lines =
      ⟨found ++ [(body.run lines).close last.index], none⟩ := by
  induction lines generalizing body count with
  | nil => exact absurd rfl hcloses.ne_nil
  | cons line more ih =>
    rw [sweep_cons, step_body (hcode line (List.mem_cons_self ..)) hbraces]
    rcases Bracket.closesOn_cons_iff.1 hcloses with ⟨hclosed, rfl, rfl⟩ | ⟨hopen, hmore⟩
    · rw [hclosed]
      rfl
    · rw [hopen]
      exact ih (fun later hlater => hcode later (List.mem_cons_of_mem line hlater))
        (braces_read hbraces line) hmore

/-- An interface whose curly brackets stay open takes all lines. -/
theorem sweep_opening_staysOpen (hcode : ∀ other ∈ line :: lines, other.isComment = false)
    (hline : Body.ofLine? lookahead line = some opened)
    (hstays : Bracket.braces.StaysOpen 0 (line :: lines)) :
    sweep (step lookahead) ⟨found, none⟩ (line :: lines) = ⟨found, some (opened.run lines)⟩ := by
  rw [sweep_cons, step_opening (hcode line (List.mem_cons_self ..)) hline, hstays.1]
  exact sweep_staysOpen (fun later hlater => hcode later (List.mem_cons_of_mem line hlater))
    (braces_of_ofLine? hline) hstays.2

/-- An interface whose curly brackets close is found with the lines up to there. -/
theorem sweep_opening_closesOn (hcode : ∀ other ∈ line :: lines, other.isComment = false)
    (hline : Body.ofLine? lookahead line = some opened)
    (hcloses : Bracket.braces.ClosesOn 0 (line :: lines) last) :
    sweep (step lookahead) ⟨found, none⟩ (line :: lines) =
      ⟨found ++ [(opened.run lines).close last.index], none⟩ := by
  rw [sweep_cons, step_opening (hcode line (List.mem_cons_self ..)) hline]
  rcases Bracket.closesOn_cons_iff.1 hcloses with ⟨hclosed, rfl, rfl⟩ | ⟨hopen, hmore⟩
  · rw [hclosed]
    rfl
  · rw [hopen]
    exact sweep_closesOn (fun later hlater => hcode later (List.mem_cons_of_mem line hlater))
      (braces_of_ofLine? hline) hmore

/-- A sweep over code lines ends with the interfaces that are derived from them. -/
theorem scans_of_sweep (lookahead size : Nat) (lines : List Line)
    (hcode : ∀ line ∈ lines, line.isComment = false) (found : List Interface) :
    ∃ interfaces,
      (sweep (step lookahead) ⟨found, none⟩ lines).finish size = found ++ interfaces ∧
        Scans lookahead size lines interfaces := by
  -- an interface takes several lines, so the induction is on their number
  induction hlength : lines.length using Nat.strong_induction_on generalizing lines found with
  | _ length ih =>
    cases lines with
    | nil => exact ⟨[], (List.append_nil found).symm, .done⟩
    | cons line more =>
      cases hline : Body.ofLine? lookahead line with
      | none =>
        have hstep : step lookahead ⟨found, none⟩ line = ⟨found, none⟩ := by
          simp [step_eq, hline]
        have hless : more.length < length := by
          rw [← hlength, List.length_cons]
          omega
        obtain ⟨interfaces, heq, hscans⟩ := ih more.length hless more
          (fun later hlater => hcode later (List.mem_cons_of_mem line hlater)) found rfl
        refine ⟨interfaces, ?_, .skip hline hscans⟩
        rw [sweep_cons, hstep, heq]
      | some opened =>
        rcases Bracket.staysOpen_or_closesOn .braces 0 line more with
          hstays | ⟨body, rest, last, rfl, hcloses⟩
        · refine ⟨[(opened.run more).close (size - 1)], ?_, .unclosed hline hstays⟩
          rw [sweep_opening_staysOpen hcode hline hstays]
          rfl
        · have hblock : ∀ other ∈ line :: body, other.isComment = false :=
            fun other hother => hcode other (List.mem_append_left rest hother)
          have hless : rest.length < length := by
            rw [← hlength, List.length_cons, List.length_append]
            omega
          obtain ⟨interfaces, heq, hscans⟩ := ih rest.length hless rest
            (fun later hlater => hcode later (List.mem_append_right (line :: body) hlater))
            (found ++ [(opened.run body).close last.index]) rfl
          refine ⟨(opened.run body).close last.index :: interfaces, ?_,
            .closed hline hcloses hscans⟩
          rw [← List.cons_append, sweep_append, sweep_opening_closesOn hblock hline hcloses, heq,
            List.append_assoc]
          rfl

end Scanner

/-- The interfaces of a document are derived from its code lines. -/
theorem Document.scans_interfaces (document : Document) (lookahead : Nat) :
    Scans lookahead document.size document.codeLines (document.interfaces lookahead) := by
  obtain ⟨interfaces, heq, hscans⟩ := Scanner.scans_of_sweep lookahead document.size
    document.codeLines (fun line hline => (Document.mem_codeLines.1 hline).2) []
  have hsweep : document.interfaces lookahead = interfaces := by
    rw [Document.interfaces, Scanner.sweep_filter]
    exact heq
  rw [hsweep]
  exact hscans

/-! ## The piece of the lines that makes an interface -/

/-- An interface is made of a piece of the lines: the line that opens it and the lines of its
body, which end where its curly brackets close or, if they never do, with the lines. -/
inductive Piece (lookahead size : Nat) (lines : List Line) : Interface → Prop where
  | closed {before body after : List Line} {line last : Line} {opened : Body}
      (hlines : lines = before ++ (line :: body ++ after))
      (hline : Body.ofLine? lookahead line = some opened)
      (hcloses : Bracket.braces.ClosesOn 0 (line :: body) last) :
      Piece lookahead size lines ((opened.run body).close last.index)
  | unclosed {before body : List Line} {line : Line} {opened : Body}
      (hlines : lines = before ++ (line :: body ++ []))
      (hline : Body.ofLine? lookahead line = some opened)
      (hstays : Bracket.braces.StaysOpen 0 (line :: body)) :
      Piece lookahead size lines ((opened.run body).close (size - 1))

variable {lookahead size : Nat} {lines : List Line} {interface : Interface}
  {interfaces : List Interface}

theorem Piece.append_left (h : Piece lookahead size lines interface) (before : List Line) :
    Piece lookahead size (before ++ lines) interface := by
  cases h with
  | closed hlines hline hcloses =>
    exact .closed (by rw [hlines, List.append_assoc]) hline hcloses
  | unclosed hlines hline hstays =>
    exact .unclosed (by rw [hlines, List.append_assoc]) hline hstays

/-- Every interface of a scan is made of a piece of its lines. -/
theorem Scans.piece (h : Scans lookahead size lines interfaces) (hmem : interface ∈ interfaces) :
    Piece lookahead size lines interface := by
  induction h with
  | done => cases hmem
  | @skip line _ _ _ _ ih => exact (ih hmem).append_left [line]
  | @closed line _ body _ _ _ hline hcloses _ ih =>
    rcases List.mem_cons.1 hmem with rfl | hrest
    · exact .closed (List.nil_append _).symm hline hcloses
    · exact (ih hrest).append_left (line :: body)
  | @unclosed line body _ hline hstays =>
    have hlines : line :: body = [] ++ (line :: body ++ []) := by simp
    rw [List.mem_singleton.1 hmem]
    exact .unclosed hlines hline hstays

/-- An interface starts on the line that opened it. -/
theorem Body.startLine_close_run {line : Line} {opened : Body}
    (hline : Body.ofLine? lookahead line = some opened) (lines : List Line) (endLine : Nat) :
    ((opened.run lines).close endLine).startLine = line.index := by
  rw [Body.close_startLine, Body.run_startLine, (Body.sound_of_ofLine? hline).2]

namespace Piece

/-- An interface starts on a line that opens one, and has its name. -/
theorem exists_opening (h : Piece lookahead size lines interface) :
    ∃ line ∈ lines, ∃ opened, Body.ofLine? lookahead line = some opened ∧
      interface.startLine = line.index ∧ interface.name = opened.name := by
  cases h with
  | @closed _ body _ line _ opened hlines hline _ =>
    refine ⟨line, by simp [hlines], opened, hline, ?_, ?_⟩
    · exact Body.startLine_close_run hline body _
    · rw [Body.close_name, Body.run_name]
  | @unclosed _ body line opened hlines hline _ =>
    refine ⟨line, by simp [hlines], opened, hline, ?_, ?_⟩
    · exact Body.startLine_close_run hline body _
    · rw [Body.close_name, Body.run_name]

/-- An interface ends on the first line at which the curly brackets opened since its first line
are closed, or on the last line of the document. -/
theorem endLine_eq (h : Piece lookahead size lines interface) (hlines : Ascending lines) :
    interface.endLine =
      ((Bracket.braces.firstClosed? .word
        (lines.filter fun line => interface.startLine ≤ line.index)).map Line.index).getD
        (size - 1) := by
  cases h with
  | @closed before body after line last opened hsplit hline hcloses =>
    subst hsplit
    have hfrom : (before ++ (line :: body ++ after)).filter
        (fun other => line.index ≤ other.index) = line :: body ++ after := hlines.filter_ge
    rw [Body.close_endLine, Body.startLine_close_run hline, hfrom,
      Bracket.firstClosed?_of_closesOn hlines.of_append_right hcloses]
    rfl
  | @unclosed before body line opened hsplit hline hstays =>
    subst hsplit
    rw [List.append_nil] at hlines ⊢
    rw [Body.close_endLine, Body.startLine_close_run hline, hlines.filter_ge,
      Bracket.firstClosed?_of_staysOpen hlines.of_append_right hstays]
    rfl

/-- An interface is read from its code lines. -/
theorem eq_close_run (h : Piece lookahead size lines interface) (hlines : Ascending lines)
    (hsize : ∀ line ∈ lines, line.index < size) :
    ∃ line ∈ lines, ∃ opened, Body.ofLine? lookahead line = some opened ∧
      interface = (opened.run (lines.filter fun other =>
        interface.startLine < other.index && other.index ≤ interface.endLine)).close
          interface.endLine := by
  cases h with
  | @closed before body after line last opened hsplit hline hcloses =>
    subst hsplit
    refine ⟨line, by simp, opened, hline, ?_⟩
    have hblock := hlines.of_append_right.of_append_left
    have hlast := hcloses.getLast?
    rw [Body.startLine_close_run hline, Body.close_endLine, hlines.filter_between]
    · exact fun other hother => hblock.le_of_getLast? hlast (List.mem_cons_of_mem line hother)
    · exact fun other hother =>
        hlines.of_append_right.lt_of_append (List.mem_of_getLast? hlast) hother
  | @unclosed before body line opened hsplit hline hstays =>
    subst hsplit
    refine ⟨line, by simp, opened, hline, ?_⟩
    rw [Body.startLine_close_run hline, Body.close_endLine, hlines.filter_between]
    · intro other hother
      have := hsize other (by simp [hother])
      omega
    · exact fun other hother => absurd hother List.not_mem_nil

end Piece

/-- A line that opens an interface starts one of the scan, unless it lies inside one. -/
theorem Scans.opening (h : Scans lookahead size lines interfaces) (hlines : Ascending lines)
    (hsize : ∀ line ∈ lines, line.index < size) {line : Line} (hmem : line ∈ lines)
    {opened : Body} (hline : Body.ofLine? lookahead line = some opened) :
    ∃ interface ∈ interfaces,
      interface.startLine = line.index ∧ interface.name = opened.name ∨
        interface.startLine < line.index ∧ line.index ≤ interface.endLine := by
  induction h with
  | done => cases hmem
  | skip hnone hrest ih =>
    rcases List.mem_cons.1 hmem with rfl | hmem
    · rw [hnone] at hline
      cases hline
    · exact ih hlines.of_cons (fun other hother => hsize other (List.mem_cons_of_mem _ hother)) hmem
  | @closed first last body rest opening interfaces hopening hcloses hrest ih =>
    rcases List.mem_append.1 hmem with hblock | hrestMem
    · refine ⟨_, List.mem_cons_self .., ?_⟩
      rw [Body.startLine_close_run hopening, Body.close_endLine]
      rcases List.mem_cons.1 hblock with rfl | hbody
      · rw [hopening] at hline
        cases hline
        exact Or.inl ⟨rfl, by rw [Body.close_name, Body.run_name]⟩
      · exact Or.inr ⟨List.rel_of_pairwise_cons hlines.of_append_left hbody,
          hlines.of_append_left.le_of_getLast? hcloses.getLast? hblock⟩
    · obtain ⟨interface, hinterface, hcase⟩ := ih hlines.of_append_right
        (fun other hother => hsize other (List.mem_append_right _ hother)) hrestMem
      exact ⟨interface, List.mem_cons_of_mem _ hinterface, hcase⟩
  | @unclosed first body opening hopening hstays =>
    refine ⟨_, List.mem_singleton_self _, ?_⟩
    rw [Body.startLine_close_run hopening, Body.close_endLine]
    rcases List.mem_cons.1 hmem with rfl | hbody
    · rw [hopening] at hline
      cases hline
      exact Or.inl ⟨rfl, by rw [Body.close_name, Body.run_name]⟩
    · have := hsize line hmem
      exact Or.inr ⟨List.rel_of_pairwise_cons hlines hbody, by omega⟩

/-! ## The lookahead does not reach the cut -/

/-- The name of an interface and its first and last line. -/
def Interface.heading (interface : Interface) : String × Nat × Nat :=
  (interface.name, interface.startLine, interface.endLine)

/-- What decides where an open interface ends. -/
def Body.frame (body : Body) : String × Nat × Depth :=
  (body.name, body.startLine, body.braces)

/-- What decides how a scanner cuts. -/
def Scanner.cut (scanner : Scanner) : List (String × Nat × Nat) × Option (String × Nat × Depth) :=
  (scanner.found.map Interface.heading, scanner.body.map Body.frame)

theorem Body.frame_read (body : Body) (line : Line) :
    (body.read line).frame = (body.name, body.startLine, body.braces.feed line.chars) := by
  rw [frame, read_name, read_startLine, read_braces]

theorem Body.heading_close (body : Body) (endLine : Nat) :
    (body.close endLine).heading = (body.frame.1, body.frame.2.1, endLine) := by
  rw [Interface.heading, close_name, close_startLine, close_endLine]
  rfl

theorem Body.map_frame_ofLine? (lookahead lookahead' : Nat) (line : Line) :
    (ofLine? lookahead line).map frame = (ofLine? lookahead' line).map frame := by
  cases hread : Heading.interface.read? line.chars with
  | none => rw [ofLine?_eq_none_iff.2 hread, ofLine?_eq_none_iff.2 hread]
  | some reading =>
    obtain ⟨name, hname⟩ := Heading.exists_group_of_interface hread
    rw [ofLine?_eq_some_iff.2 ⟨reading, name, hread, hname, rfl⟩,
      ofLine?_eq_some_iff.2 ⟨reading, name, hread, hname, rfl⟩]
    rfl

namespace Scanner

variable {scanner scanner' : Scanner} {body body' : Body}

theorem cut_settle (hfound : scanner.cut.1 = scanner'.cut.1) (hbody : body.frame = body'.frame)
    (line : Line) : (scanner.settle body line).cut = (scanner'.settle body' line).cut := by
  have hbraces : body.braces = body'.braces := congrArg (fun frame => frame.2.2) hbody
  have hclose : (body.close line.index).heading = (body'.close line.index).heading := by
    rw [Body.heading_close, Body.heading_close, hbody]
  rw [settle_eq, settle_eq, hbraces]
  split
  · simp only [cut, List.map_append, List.map_cons, List.map_nil, Option.map_none, hclose]
    exact congrArg (fun found => (found ++ _, none)) hfound
  · exact Prod.ext hfound (congrArg some hbody)

theorem cut_step (h : scanner.cut = scanner'.cut) (lookahead lookahead' : Nat) (line : Line) :
    (step lookahead scanner line).cut = (step lookahead' scanner' line).cut := by
  have hfound : scanner.cut.1 = scanner'.cut.1 := congrArg Prod.fst h
  have hbody : scanner.body.map Body.frame = scanner'.body.map Body.frame := congrArg Prod.snd h
  have hopened := Body.map_frame_ofLine? lookahead lookahead' line
  rw [step_eq, step_eq]
  split
  · exact h
  · cases hleft : scanner.body with
    | none =>
      rw [hleft, Option.map_none, eq_comm, Option.map_eq_none_iff] at hbody
      rw [hbody]
      dsimp only
      cases hleftOpened : Body.ofLine? lookahead line with
      | none =>
        rw [hleftOpened, Option.map_none, eq_comm, Option.map_eq_none_iff] at hopened
        rw [hopened]
        exact h
      | some opened =>
        rw [hleftOpened, Option.map_some, eq_comm, Option.map_eq_some_iff] at hopened
        obtain ⟨opened', hright, hframe⟩ := hopened
        rw [hright]
        exact cut_settle hfound hframe.symm line
    | some body =>
      rw [hleft, Option.map_some, eq_comm, Option.map_eq_some_iff] at hbody
      obtain ⟨body', hright, hframe⟩ := hbody
      rw [hright]
      refine cut_settle hfound ?_ line
      obtain ⟨hname, hstart, hbraces⟩ : body'.name = body.name ∧
          body'.startLine = body.startLine ∧ body'.braces = body.braces := by
        simpa [Body.frame] using hframe
      rw [Body.frame_read, Body.frame_read, hname, hstart, hbraces]

theorem cut_sweep (h : scanner.cut = scanner'.cut) (lookahead lookahead' : Nat)
    (lines : List Line) :
    (sweep (step lookahead) scanner lines).cut = (sweep (step lookahead') scanner' lines).cut := by
  induction lines generalizing scanner scanner' with
  | nil => exact h
  | cons line more ih => exact ih (cut_step h lookahead lookahead' line)

theorem map_heading_finish (h : scanner.cut = scanner'.cut) (size : Nat) :
    (scanner.finish size).map Interface.heading = (scanner'.finish size).map Interface.heading := by
  have hfound : scanner.found.map Interface.heading = scanner'.found.map Interface.heading :=
    congrArg Prod.fst h
  have hbody : scanner.body.map Body.frame = scanner'.body.map Body.frame := congrArg Prod.snd h
  rw [finish_eq, finish_eq]
  cases hleft : scanner.body with
  | none =>
    rw [hleft, Option.map_none, eq_comm, Option.map_eq_none_iff] at hbody
    rw [hbody]
    exact hfound
  | some body =>
    rw [hleft, Option.map_some, eq_comm, Option.map_eq_some_iff] at hbody
    obtain ⟨body', hright, hframe⟩ := hbody
    rw [hright]
    simp only [List.map_append, List.map_cons, List.map_nil, hfound, Body.heading_close, hframe]

end Scanner

/-! ## The cut of a document -/

namespace Document

/-- The code lines of a document from a line on. -/
def codeLinesFrom (document : Document) (first : Nat) : List Line :=
  document.codeLines.filter fun line => first ≤ line.index

/-- Some interfaces are exactly those that the headings and the curly brackets of a document
make, with net counts of brackets held in the given way. -/
structure Segmented (document : Document) (counting : Counting) (interfaces : List Interface) :
    Prop where
  /-- A code line that opens an interface and lies in no earlier one starts one, with the name
  in the heading. -/
  start_of_opening : ∀ line ∈ document.lines, line.isComment = false → ∀ reading,
    Heading.interface.read? line.chars = some reading →
    (∀ earlier ∈ interfaces, earlier.startLine < line.index → earlier.endLine < line.index) →
    ∃ interface ∈ interfaces, interface.startLine = line.index ∧
      (reading.group? 1).map (·.text line.chars) = some interface.name
  /-- No other line starts one. -/
  opening_of_start : ∀ interface ∈ interfaces, ∃ line ∈ document.lines,
    line.isComment = false ∧ line.index = interface.startLine ∧
    (∃ reading, Heading.interface.read? line.chars = some reading ∧
      (reading.group? 1).map (·.text line.chars) = some interface.name) ∧
    ∀ earlier ∈ interfaces, earlier.startLine < line.index → earlier.endLine < line.index
  /-- It ends on the first code line at which the net count of curly brackets over the code lines
  since its first line is not positive, or on the last line of the document. -/
  endLine_eq : ∀ interface ∈ interfaces, interface.endLine =
    ((Bracket.braces.firstClosed? counting (document.codeLinesFrom interface.startLine)).map
      Line.index).getD (document.size - 1)
  /-- A code line that opens an interface lies in exactly one. -/
  one_of_opening : ∀ line ∈ document.lines, line.isComment = false →
    (Heading.interface.read? line.chars).isSome = true →
    interfaces.countP (·.contains line.index) = 1

theorem codeLines_ascending (text : String) : Ascending (ofText text).codeLines :=
  (ofText_ascending text).filter _

theorem codeLines_lt_size {text : String} {line : Line} (h : line ∈ (ofText text).codeLines) :
    line.index < (ofText text).size :=
  index_lt_size (mem_codeLines.1 h).1

/-- A code line that opens an interface starts one, or lies in an earlier one. -/
theorem opening_cases {text : String} (lookahead : Nat) {line : Line}
    (hline : line ∈ (ofText text).lines) (hcode : line.isComment = false) {reading : Reading}
    (hread : Heading.interface.read? line.chars = some reading) :
    ∃ interface ∈ (ofText text).interfaces lookahead,
      interface.startLine = line.index ∧
          (reading.group? 1).map (·.text line.chars) = some interface.name ∨
        interface.startLine < line.index ∧ line.index ≤ interface.endLine := by
  obtain ⟨name, hname⟩ := Heading.exists_group_of_interface hread
  have hopened : Body.ofLine? lookahead line = some _ :=
    Body.ofLine?_eq_some_iff.2 ⟨reading, name, hread, hname, rfl⟩
  obtain ⟨interface, hinterface, hcase⟩ :=
    ((ofText text).scans_interfaces lookahead).opening (codeLines_ascending text)
      (fun _ => codeLines_lt_size) (mem_codeLines.2 ⟨hline, hcode⟩) hopened
  refine ⟨interface, hinterface, hcase.imp_left ?_⟩
  rintro ⟨hstart, heq⟩
  exact ⟨hstart, by rw [hname, Option.map_some, heq]⟩

theorem codeLinesFrom_sublist (document : Document) (first : Nat) :
    (document.codeLinesFrom first).Sublist document.lines :=
  List.filter_sublist.trans List.filter_sublist

/-- The interfaces of a text are exactly those that its headings and curly brackets make, by any
way to count that is good enough for the text. -/
theorem segmented_interfaces {counting : Counting} {text : String} (hfits : counting.Fits text)
    (lookahead : Nat) :
    (ofText text).Segmented counting ((ofText text).interfaces lookahead) := by
  have horder := (sweep_sound text lookahead).finish
  have hscans := (ofText text).scans_interfaces lookahead
  refine ⟨?_, ?_, ?_, ?_⟩
  · intro line hline hcode reading hread houtside
    obtain ⟨interface, hmem, hstart | ⟨hlt, hle⟩⟩ := opening_cases lookahead hline hcode hread
    · exact ⟨interface, hmem, hstart⟩
    · have := houtside interface hmem hlt
      omega
  · intro interface hmem
    obtain ⟨line, hline, opened, hopened, hstart, hname⟩ := (hscans.piece hmem).exists_opening
    obtain ⟨reading, span, hread, hspan, rfl⟩ := Body.ofLine?_eq_some_iff.1 hopened
    refine ⟨line, (mem_codeLines.1 hline).1, (mem_codeLines.1 hline).2, hstart.symm,
      ⟨reading, hread, by rw [hspan, Option.map_some, hname]⟩, ?_⟩
    intro earlier hearlier hlt
    rw [← hstart] at hlt ⊢
    exact horder.endLine_lt hearlier hmem hlt
  · intro interface hmem
    rw [hfits.firstClosed?_eq (codeLinesFrom_sublist _ _)]
    exact (hscans.piece hmem).endLine_eq (codeLines_ascending text)
  · intro line hline hcode hread
    obtain ⟨reading, hread⟩ := Option.isSome_iff_exists.1 hread
    obtain ⟨interface, hmem, hcase⟩ := opening_cases lookahead hline hcode hread
    have hle := (horder.each interface hmem).start_le_end
    refine horder.countP_contains hmem ?_
    simp only [Interface.contains, Bool.and_eq_true, decide_eq_true_eq]
    rcases hcase with ⟨hstart, _⟩ | ⟨hlt, hend⟩ <;> omega

/-- The interfaces of a text are exactly those that its headings and curly brackets make.  In
every text the brackets are counted in words of 32 bits, and in a text of fewer than `2 ^ 31`
characters that is to count them exactly.  The lookahead does not change the names and lines of
the interfaces. -/
theorem interfaces_segmented (text : String) (lookahead : Nat) :
    (ofText text).Segmented .word ((ofText text).interfaces lookahead) ∧
      (text.length < Nat.pow 2 31 →
        (ofText text).Segmented .exact ((ofText text).interfaces lookahead)) ∧
      ∀ other, ((ofText text).interfaces other).map Interface.heading =
        ((ofText text).interfaces lookahead).map Interface.heading := by
  refine ⟨segmented_interfaces (Or.inl rfl) lookahead, ?_, fun other => ?_⟩
  · exact fun hlength => segmented_interfaces (Or.inr hlength) lookahead
  · exact Scanner.map_heading_finish
      (Scanner.cut_sweep rfl other lookahead (ofText text).lines) (ofText text).size

end Document

end Wayfinder
