import Wayfinder.Proofs.Interface.Signatures
import Wayfinder.Proofs.TrailingComment

/-!
# Lines that start with the mark of a line comment

Trimming takes blanks of every script from the ends of a line.  The verdict on a line knows fewer
blanks: one that is not an ASCII blank counts as code.

* `classify_blanks_mark` is the verdict on blanks with the mark of a line comment behind them.
* `Line.PassedOver` says that no scan notices a line, whatever state it is in.  Comment lines are
  passed over (`Line.passedOver_of_isComment`).  A code line that starts with the mark is not: it
  ends a signature that waits for its results (`Line.not_passedOver`).
* `Document.mark_hides_iff_asciiBlank` puts these together for the lines of a text.
-/

namespace Wayfinder

/-! ## The verdict -/

theorem isQuote_of_isBlank {c : Char} (h : Text.isBlank c = true) : isQuote c = false := by
  by_contra hquote
  rw [Bool.not_eq_false, isQuote, Bool.or_eq_true, Bool.or_eq_true] at hquote
  simp only [beq_iff_eq] at hquote
  rcases hquote with (rfl | rfl) | rfl <;> revert h <;> decide

/-- Behind blanks, the mark of a line comment makes a comment line of a line without code, if all
blanks are ASCII blanks. -/
theorem classifyFrom_blanks_mark {lead : List Char} (hlead : ∀ c ∈ lead, Text.isBlank c = true)
    (comment code : Bool) (rest : List Char) :
    classifyFrom .code comment code (lead ++ '/' :: '/' :: rest) =
      { isComment := !code && lead.all Text.isAsciiBlank, inBlock := false } := by
  induction lead generalizing code with
  | nil => simp [classifyFrom]
  | cons c lead ih =>
    obtain ⟨hc, hlead⟩ := List.forall_mem_cons.1 hlead
    have hslash : c ≠ '/' := by
      rintro rfl
      revert hc
      decide
    simp [classifyFrom, hslash, isQuote_of_isBlank hc, ih hlead, Bool.and_assoc]

theorem classify_blanks_mark {lead : List Char} (hlead : ∀ c ∈ lead, Text.isBlank c = true)
    (rest : List Char) :
    classify false (lead ++ '/' :: '/' :: rest) =
      { isComment := lead.all Text.isAsciiBlank, inBlock := false } := by
  simp [classify_eq_classifyFrom, classifyFrom_blanks_mark hlead]

/-- A text that starts with the mark of a line comment when it is trimmed has blanks in front of
the mark. -/
theorem Text.exists_lead_mark {text : List Char} (h : "//".toList <+: trim text) :
    ∃ rest, text = text.takeWhile isBlank ++ '/' :: '/' :: rest := by
  obtain ⟨more, hmore⟩ := h
  have hne : trim text ≠ [] := by
    rw [← hmore]
    simp
  obtain ⟨lead, c, rest, rfl, hlead, hc⟩ := exists_lead hne
  have hfront : (lead ++ c :: rest).takeWhile isBlank = lead := by
    rw [List.takeWhile_append_of_pos hlead, List.takeWhile_cons_of_neg (by simp [hc]),
      List.append_nil]
  rw [trim_of_blank_append hlead hc] at hmore
  obtain ⟨rfl, htail⟩ : '/' = c ∧ '/' :: more = trimEnd rest := by simpa using hmore
  have hkept : trimEnd rest <+: rest := by
    simpa [trimEnd] using List.reverse_prefix.2 (List.dropWhile_suffix isBlank (l := rest.reverse))
  obtain ⟨blanks, hblanks⟩ := hkept
  refine ⟨more ++ blanks, ?_⟩
  rw [hfront, ← List.cons_append, htail, hblanks]

/-! ## Lines that no scan notices -/

/-- Both scans pass over a line in whatever state they reach it: it opens and ends nothing, feeds
no depth and spends no lookahead. -/
structure Line.PassedOver (line : Line) : Prop where
  interfaces : ∀ lookahead scanner, Scanner.step lookahead scanner line = scanner
  receivers : ∀ document found, ReceiverMethod.step document found line = found
  /-- Behind a declaration whose end is still sought, only the number of the line is kept. -/
  depths : ∀ parens braces last more, ReceiverMethod.endFrom parens braces last (line :: more) =
    ReceiverMethod.endFrom parens braces line.index more

namespace Line

variable {line : Line}

theorem passedOver_of_isComment (h : line.isComment = true) : line.PassedOver where
  interfaces lookahead scanner := by rw [Scanner.step_eq, if_pos h]
  receivers document found := by rw [ReceiverMethod.step_eq, if_pos h]
  depths parens braces last more := by rw [ReceiverMethod.endFrom_cons, if_pos h]

/-- A code line that starts with the mark of a comment ends a signature that waits for its results,
where its parameters closed. -/
theorem readSignatures_mark (hhead : line.trimmed.head? = some '/') (body : Body) (draft : Draft)
    (closedAt budget : Nat) (count : Int) (lastLine : Nat) :
    (body.keep (draft.moved (.between closedAt budget) count lastLine)).readSignatures line =
      body.report draft closedAt := by
  have hnone : Draft.ofLine? line = none := Draft.ofLine?_of_head? hhead (by decide)
  rw [Body.readSignatures_between, if_neg (not_isBlank_of_head?_trimmed hhead),
    if_neg (by simp [hhead])]
  simp only [Body.begin_eq, hnone]

/-- An open interface with a signature that waits for its results. -/
def waiting : Body :=
  Body.keep ⟨"", 0, .ofCount .braces 1, 1, [], [], none⟩
    (Draft.moved ⟨"", 0, 0, .ofCount .parens 0, .parameters, 0⟩ (.between 0 1) 0 0)

theorem draft_read_waiting (hhead : line.trimmed.head? = some '/') :
    (waiting.read line).draft = none := by
  have hread : (waiting.read line).draft = (waiting.readSignatures line).draft := rfl
  rw [hread, waiting, readSignatures_mark hhead]
  exact Body.report_draft _ _ _

/-- A code line that starts with the mark is not passed over. -/
theorem not_passedOver (hcode : line.isComment = false) (hhead : line.trimmed.head? = some '/') :
    ¬ line.PassedOver := by
  intro h
  have hbraces : waiting.braces = .ofCount .braces 1 := rfl
  have hstep := h.interfaces 1 ⟨[], some waiting⟩
  rw [Scanner.step_body hcode hbraces] at hstep
  split_ifs at hstep
  · cases congrArg Scanner.body hstep
  · have hbody : waiting.read line = waiting := by simpa using hstep
    have hdraft := draft_read_waiting hhead
    rw [hbody] at hdraft
    cases hdraft

end Line

/-! ## The lines of a text -/

namespace Document

/-- The verdict on a line that starts outside of block comments. -/
theorem isComment_of_start {text : String} {index : Nat} {line : Line} {lexed : LexedLine}
    (hline : (ofText text).line? index = some line)
    (hlexed : (Lexer.lines text.toList)[index]? = some lexed) (hstart : lexed.start ≠ .block) :
    line.isComment = (classify false line.chars).isComment := by
  have hchars := splitLines_of_line? hline
  obtain ⟨_, _, _, _, _, _, hblock⟩ := Lexer.exists_lexed (Or.inl rfl) hlexed
  obtain ⟨hindex, hget⟩ := List.getElem?_eq_some_iff.1 hchars
  have htext : Text.splitLines text.toList = (Text.splitLines text.toList).take index ++
      line.chars :: (Text.splitLines text.toList).drop (index + 1) := by
    rw [← hget, List.getElem_cons_drop, List.take_append_drop]
  have hfound := line?_of_splitLines htext
  rw [List.length_take_of_le (Nat.le_of_lt hindex), hline] at hfound
  have hopen : blockBehind false ((Text.splitLines text.toList).take index) = false :=
    hblock.trans (decide_eq_false hstart)
  rw [hopen] at hfound
  exact congrArg Line.isComment (Option.some.inj hfound)

/-- A line that starts outside of block comments, with the mark of a line comment when it is
trimmed, is a comment line exactly if the blanks in front of the mark are ASCII blanks.  These lines
are those that the scans pass over. -/
theorem mark_hides_iff_asciiBlank {text : String} {index : Nat} {line : Line} {lexed : LexedLine}
    (hline : (ofText text).line? index = some line)
    (hlexed : (Lexer.lines text.toList)[index]? = some lexed) (hstart : lexed.start ≠ .block)
    (hmark : "//".toList <+: line.trimmed) :
    (line.isComment = true ↔
        ∀ c ∈ line.chars.takeWhile Text.isBlank, Text.isAsciiBlank c = true) ∧
      (line.PassedOver ↔ line.isComment = true) := by
  obtain ⟨rest, hchars⟩ := Text.exists_lead_mark hmark
  have hverdict := isComment_of_start hline hlexed hstart
  rw [hchars, classify_blanks_mark fun c hc => List.mem_takeWhile_imp hc] at hverdict
  refine ⟨by rw [hverdict, List.all_eq_true], ?_, Line.passedOver_of_isComment⟩
  intro hpassed
  by_contra hcode
  rw [Bool.not_eq_true] at hcode
  obtain ⟨more, hmore⟩ := hmark
  exact Line.not_passedOver hcode (by rw [← hmore]; rfl) hpassed

/-- A signature with a comment line between its parameters and its results.  A form feed is among
the blanks in front of the mark. -/
def asciiBlankText : String :=
  "type R interface \x7b\n\tGet()\n\t\x0C // of\n\t(n int)\n\x7d\n"

theorem mark_hides_iff_asciiBlank_formFeed :
    (ofText asciiBlankText).line? 2 = some ⟨2, "\t\x0C // of", true⟩ ∧
      (Line.mk 2 "\t\x0C // of" true).PassedOver := by
  have hline : (ofText asciiBlankText).line? 2 = some ⟨2, "\t\x0C // of", true⟩ := by
    decide +kernel
  have hlexed : (Lexer.lines asciiBlankText.toList)[2]? =
      some ⟨.code, Lexer.lex .code "\t\x0C // of\n".toList⟩ := by decide +kernel
  have hmark : "//".toList <+: (Line.mk 2 "\t\x0C // of" true).trimmed := by decide
  have hpassed := (mark_hides_iff_asciiBlank hline hlexed (by decide) hmark).2.2 rfl
  exact ⟨hline, hpassed⟩

/-- The same signature with a no-break space in front of the mark. -/
def noBreakText : String :=
  "type R interface \x7b\n\tGet()\n\u00a0// of\n\t(n int)\n\x7d\n"

/-- The line with the no-break space starts with the mark when it is trimmed, but it is code and
ends the signature, so that the results are lost. -/
theorem noBreakSpace_mark_ends_signature :
    (ofText noBreakText).line? 2 = some ⟨2, "\u00a0// of", false⟩ ∧
      (Lexer.lines noBreakText.toList)[2]? =
        some ⟨.code, Lexer.lex .code "\u00a0// of\n".toList⟩ ∧
      "//".toList <+: (Line.mk 2 "\u00a0// of" false).trimmed ∧
      (ofText noBreakText).interfaces 3 = [⟨"R", 0, 4, [⟨"R", "Get", 1, 1, 1⟩]⟩] := by
  decide +kernel

end Document

end Wayfinder
