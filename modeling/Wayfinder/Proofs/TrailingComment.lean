import Wayfinder.Proofs.Alike
import Wayfinder.Proofs.CommentLine
import Wayfinder.Proofs.Lexer
import Wayfinder.Proofs.LongerLine

/-!
# Comments at the end of a line

A line comment that is put behind the code of a line changes nothing that a scan finds.

* `Text.appendToLine` puts characters at the end of a line of a text, in front of its ending.
  That line becomes longer, and the others stay as they are
  (`Text.splitLines_appendToLine`).
* The verdict on the line and on what is open behind it stays the same, if the line is not
  blank and the lexer is not inside a block comment or a literal at its end
  (`Lexer.classify_append`).
* The longer line is like the shorter one for a scan (`Line.alike_lengthened`).  The search for
  code behind the last parenthesis takes the first mark of a comment it finds, even in a
  literal, but such a mark stands in front of the new comment.
* `Document.outline_withLineComment` puts these together for a whole text.
-/

namespace Wayfinder

/-! ## Putting characters at the end of a line -/

namespace Text

/-- A text with more characters at the end of a line, in front of its ending. -/
def appendToLine (extra : List Char) : Nat → List Char → List Char
  | 0, [] => extra
  | 0, '\n' :: rest => extra ++ '\n' :: rest
  | 0, '\r' :: '\n' :: rest => extra ++ '\r' :: '\n' :: rest
  | 0, c :: rest => c :: appendToLine extra 0 rest
  | _ + 1, [] => []
  | index + 1, '\n' :: rest => '\n' :: appendToLine extra index rest
  | index + 1, c :: rest => c :: appendToLine extra (index + 1) rest

variable {extra text line ending rest : List Char}

/-- The characters go behind those of the line. -/
theorem appendToLine_zero_append (h : '\n' ∉ line)
    (hpair : line.getLast? = some '\r' → rest.head? ≠ some '\n') :
    appendToLine extra 0 (line ++ rest) = line ++ appendToLine extra 0 rest := by
  induction line with
  | nil => rfl
  | cons c line ih =>
    obtain ⟨hc, hline⟩ := not_or.1 (mt List.mem_cons.2 h)
    have hmore : ∀ behind, c = '\r' → line ++ rest ≠ '\n' :: behind := by
      rintro behind rfl heq
      cases line with
      | nil => exact hpair rfl (by rw [← List.nil_append rest, heq]; rfl)
      | cons d line => exact hline ((List.cons.inj heq).1 ▸ List.mem_cons_self)
    rw [List.cons_append, appendToLine.eq_4 _ _ _ (Ne.symm hc) hmore, ih hline, List.cons_append]
    intro hlast
    refine hpair ?_
    rw [List.getLast?_cons, hlast]
    rfl

/-- In the first line the characters stand in front of its ending. -/
theorem appendToLine_zero (h : FirstLine text line ending rest) :
    appendToLine extra 0 text = line ++ (extra ++ (ending ++ rest)) := by
  cases h with
  | feed hline hreturn =>
    rw [appendToLine_zero_append hline fun hlast => absurd hlast hreturn, appendToLine]
    rfl
  | returnFeed hline =>
    rw [appendToLine_zero_append hline (by simp), appendToLine]
    rfl
  | last hline hne =>
    have happend : appendToLine extra 0 (text ++ []) = text ++ appendToLine extra 0 [] :=
      appendToLine_zero_append hline (by simp)
    rw [List.append_nil] at happend
    simp [happend, appendToLine]

/-- Lines in front of the line stay as they are. -/
theorem appendToLine_succ (h : '\n' ∉ line) (index : Nat) (rest : List Char) :
    appendToLine extra (index + 1) (line ++ '\n' :: rest) =
      line ++ '\n' :: appendToLine extra index rest := by
  induction line with
  | nil => rw [List.nil_append, appendToLine]; rfl
  | cons c line ih =>
    obtain ⟨hc, hline⟩ := not_or.1 (mt List.mem_cons.2 h)
    rw [List.cons_append, appendToLine.eq_7 _ _ _ _ (Ne.symm hc), ih hline]
    rfl

/-- The longer line is the first line of the longer text.  A carriage return at its end may become
part of its ending. -/
theorem FirstLine.append (h : FirstLine text line ending rest) (hextra : '\n' ∉ extra) :
    ∃ kept ending', (extra = kept ∨ extra = kept ++ ['\r']) ∧
      FirstLine (line ++ (extra ++ (ending ++ rest))) (line ++ kept) ending' rest := by
  have hno : ∀ {kept : List Char}, kept ⊆ extra → '\n' ∉ line ++ kept := by
    intro kept hkept hmem
    rcases List.mem_append.1 hmem with hmem | hmem
    · exact h.no_feed hmem
    · exact hextra (hkept hmem)
  cases h with
  | feed _ hreturn =>
    by_cases hlast : extra.getLast? = some '\r'
    · obtain ⟨kept, rfl⟩ := List.getLast?_eq_some_iff.1 hlast
      have hfirst : FirstLine (line ++ kept ++ '\r' :: '\n' :: rest) _ _ _ :=
        .returnFeed (hno (List.subset_append_left _ _))
      exact ⟨kept, _, Or.inr rfl, by simpa using hfirst⟩
    · have hreturn' : (line ++ extra).getLast? ≠ some '\r' := by
        rw [List.getLast?_append]
        cases hend : extra.getLast? with
        | none => exact hreturn
        | some c =>
          rw [hend] at hlast
          exact hlast
      have hfirst : FirstLine (line ++ extra ++ '\n' :: rest) _ _ _ :=
        .feed (hno (List.Subset.refl _)) hreturn'
      exact ⟨extra, _, Or.inl rfl, by simpa using hfirst⟩
  | returnFeed =>
    have hfirst : FirstLine (line ++ extra ++ '\r' :: '\n' :: rest) _ _ _ :=
      .returnFeed (hno (List.Subset.refl _))
    exact ⟨extra, _, Or.inl rfl, by simpa using hfirst⟩
  | last _ hne =>
    have hfirst : FirstLine (text ++ extra) _ _ _ :=
      .last (hno (List.Subset.refl _)) (by simp [hne])
    exact ⟨extra, _, Or.inl rfl, by simpa using hfirst⟩

/-- One line of the text is longer, and the others are as before. -/
theorem splitLines_appendToLine (hextra : '\n' ∉ extra) {index : Nat}
    (h : (splitLines text)[index]? = some line) :
    ∃ front back kept, front.length = index ∧ splitLines text = front ++ line :: back ∧
      (extra = kept ∨ extra = kept ++ ['\r']) ∧
      splitLines (appendToLine extra index text) = front ++ (line ++ kept) :: back := by
  induction text using byLines generalizing index with
  | nil => simp [splitLines] at h
  | line text first ending rest hfirst ih =>
    rw [hfirst.splitLines_eq] at h ⊢
    cases index with
    | zero =>
      obtain rfl : first = line := by simpa using h
      obtain ⟨kept, ending', hkept, hlonger⟩ := hfirst.append hextra
      refine ⟨[], splitLines rest, kept, rfl, rfl, hkept, ?_⟩
      rw [appendToLine_zero hfirst, hlonger.splitLines_eq]
      rfl
    | succ index =>
      rw [List.getElem?_cons_succ] at h
      obtain ⟨front, back, kept, hfront, hsplit, hkept, hlonger⟩ := ih h
      refine ⟨first :: front, back, kept, by rw [List.length_cons, hfront], by rw [hsplit]; rfl,
        hkept, ?_⟩
      rw [List.cons_append, ← hlonger]
      cases hfirst with
      | feed hline hreturn =>
        rw [appendToLine_succ hline, splitLines_append_feed hline hreturn]
      | returnFeed hline =>
        have hline' : '\n' ∉ first ++ ['\r'] := by simpa using hline
        rw [List.append_cons, appendToLine_succ hline', List.append_assoc, List.singleton_append,
          splitLines_append_returnFeed hline]
      | last => simp [splitLines] at h

end Text

/-! ## The verdict on the longer line -/

namespace Lexer

/-- Where no comment starts, what is not in a comment yet stays outside of comments. -/
theorem part_of_not_opens (mode : Mode) (hline : mode ≠ .line) (hblock : mode ≠ .block)
    {text : List Char} (hopens : opens (lex mode text) = false) :
    ∀ glyph ∈ lex mode text, glyph.part = .code ∨ glyph.part = .literal := by
  fun_induction lex mode text <;> simp_all

/-- A line that is neither blank nor a comment line holds something outside of comments. -/
theorem shows_of_code {start : Mode} (hstart : start = .code ∨ start = .block) {line : List Char}
    (hfeed : '\n' ∉ line) (hcode : (classify (decide (start = .block)) line).isComment = false)
    (hblank : Text.trim line ≠ []) : shows (lex start line) = true := by
  by_contra hshows
  rw [Bool.not_eq_true] at hshows
  rw [Document.classify_eq hstart hfeed, hshows] at hcode
  obtain ⟨hblock, hopens⟩ : start ≠ .block ∧ opens (lex start line) = false := by simpa using hcode
  obtain rfl := hstart.resolve_right hblock
  obtain ⟨lead, c, rest, hline, _, hc⟩ := Text.exists_lead hblank
  obtain ⟨glyph, hglyph, rfl⟩ : ∃ glyph ∈ lex .code line, glyph.char = c := by
    rw [← List.mem_map, map_char_lex, hline]
    exact List.mem_append_right _ List.mem_cons_self
  have hascii : Text.isAsciiBlank glyph.char = true := by
    have hpart := part_of_not_opens .code nofun nofun hopens glyph hglyph
    simpa [hpart] using List.any_eq_false.1 hshows glyph hglyph
  rw [Text.isBlank_of_isAsciiBlank hascii] at hc
  cases hc

/-- Characters that can be put behind the code of a line: they start with a separator, and no block
comment is open behind them. -/
structure Trails (extra : List Char) : Prop where
  no_feed : '\n' ∉ extra
  head : ∀ c ∈ extra.head?, isSeparator c = true
  behind_ne : ∀ mode, mode = .code ∨ mode = .line → behind mode (lex mode extra) ≠ .block

/-- A line comment goes on to the end of the line. -/
theorem trails_lineComment {comment : List Char} (hcomment : '\n' ∉ comment) :
    Trails (' ' :: '/' :: '/' :: comment) where
  no_feed := by simpa using hcomment
  head := by simp [isSeparator]
  behind_ne mode hmode := by
    rcases hmode with rfl | rfl
    · simp [lex, Quote.ofChar?, lex_line hcomment]
    · rw [(lex_line (by simpa using hcomment)).2.2]
      decide

/-- Such characters change nothing in the verdict on a line that shows code. -/
theorem classify_append {start : Mode} (hstart : start = .code ∨ start = .block)
    {line extra : List Char} (hfeed : '\n' ∉ line) (hextra : Trails extra)
    (hmode : behind start (lex start line) = .code ∨ behind start (lex start line) = .line)
    (hcode : (classify (decide (start = .block)) line).isComment = false)
    (hblank : Text.trim line ≠ []) :
    classify (decide (start = .block)) (line ++ extra) =
      classify (decide (start = .block)) line := by
  have hshows := shows_of_code hstart hfeed hcode hblank
  have hlonger : '\n' ∉ line ++ extra := by simpa using ⟨hfeed, hextra.no_feed⟩
  have hblock : behind start (lex start line) ≠ .block := by
    rcases hmode with hmode | hmode <;> simp [hmode]
  rw [Document.classify_eq hstart hlonger, Document.classify_eq hstart hfeed,
    lex_append start line hextra.head]
  simp [hshows, behind_append, hextra.behind_ne _ hmode, hblock]

/-- A lexed line is the line at its place, lexed by itself, with its ending.  It starts in a block
comment if one is open behind the lines in front of it. -/
theorem exists_lexed {start : Mode} (hstart : start = .code ∨ start = .block) {text : List Char}
    {index : Nat} {lexed : LexedLine} (h : (cut start (lex start text))[index]? = some lexed) :
    ∃ line tail, (Text.splitLines text)[index]? = some line ∧ '\n' ∉ line ∧
      lexed.glyphs = lex lexed.start line ++ tail ∧ (lexed.start = .code ∨ lexed.start = .block) ∧
      blockBehind (decide (start = .block)) ((Text.splitLines text).take index) =
        decide (lexed.start = .block) := by
  induction text using Text.byLines generalizing index start with
  | nil => simp [lex, cut] at h
  | line text line ending rest hfirst ih =>
    obtain ⟨tail, _, _, _, hcut⟩ := exists_cut_firstLine hfirst start
    rw [hcut] at h
    rw [hfirst.splitLines_eq]
    cases index with
    | zero =>
      obtain rfl : LexedLine.mk start (lex start line ++ tail) = lexed := by simpa using h
      exact ⟨line, tail, rfl, hfirst.no_feed, rfl, hstart, rfl⟩
    | succ index =>
      obtain ⟨line', tail', hline', hfeed, hglyphs, hmode, hblock⟩ := ih (Mode.past_feed _) h
      refine ⟨line', tail', hline', hfeed, hglyphs, hmode, ?_⟩
      rw [← hblock, List.take_succ_cons, blockBehind, List.foldl_cons,
        Document.classify_eq hstart hfirst.no_feed]
      simp only [blockBehind, Mode.past_feed_eq_block_iff]

end Lexer

/-! ## The longer line -/

/-- What stands in front of a line comment ends where it did, or with the blank in front of the
new comment. -/
theorem exists_beforeLineComment_append (line comment : List Char) :
    ∃ gap, (∀ c ∈ gap, Text.isBlank c = true) ∧
      beforeLineComment (line ++ ' ' :: '/' :: '/' :: comment) = beforeLineComment line ++ gap := by
  fun_induction beforeLineComment line with
  | case1 =>
    have hspace : Text.isBlank ' ' = true := by decide +kernel
    exact ⟨[' '], by simpa using hspace, by simp [beforeLineComment]⟩
  | case2 rest => exact ⟨[], by simp, by simp [beforeLineComment]⟩
  | case3 c rest hmark ih =>
    obtain ⟨gap, hgap, hbefore⟩ := ih
    have hmark' : ∀ more, c = '/' → rest ++ ' ' :: '/' :: '/' :: comment ≠ '/' :: more := by
      intro more hc heq
      cases rest with
      | nil => cases heq
      | cons d rest => exact hmark rest hc (by rw [(List.cons.inj heq).1])
    refine ⟨gap, hgap, ?_⟩
    rw [List.cons_append, beforeLineComment.eq_3 _ _ hmark', hbefore, List.cons_append]

/-- A line comment adds nothing to the code behind the last parenthesis. -/
theorem tailAfterLastParen_append (line comment : List Char) :
    tailAfterLastParen (line ++ ' ' :: '/' :: '/' :: comment) = tailAfterLastParen line := by
  obtain ⟨gap, hgap, hbefore⟩ := exists_beforeLineComment_append line comment
  have hparen : Text.isBlank ')' = false := by decide +kernel
  have hkept : ∀ c ∈ gap.reverse, (c != ')') = true := by
    intro c hc
    rw [bne_iff_ne]
    rintro rfl
    rw [hgap ')' (List.mem_reverse.1 hc)] at hparen
    cases hparen
  rw [tailAfterLastParen, hbefore, List.reverse_append, List.takeWhile_append_of_pos hkept,
    List.reverse_append, List.reverse_reverse, Text.trim_append_blanks _ hgap, tailAfterLastParen]

/-- A line with more characters at its end, if it has the number and is not blank. -/
def Line.lengthened (index : Nat) (extra : List Char) (line : Line) : Line :=
  if line.index = index ∧ line.isBlank = false then
    { line with text := String.ofList (line.chars ++ extra) }
  else line

namespace Line

variable {index : Nat} {extra : List Char} {line : Line}

theorem lengthened_of_ne (h : line.index ≠ index) (extra : List Char) :
    line.lengthened index extra = line :=
  if_neg fun hline => h hline.1

theorem chars_lengthened (hindex : line.index = index) (hblank : line.isBlank = false)
    (extra : List Char) : (line.lengthened index extra).chars = line.chars ++ extra := by
  rw [lengthened, if_pos ⟨hindex, hblank⟩, chars, String.toList_ofList]

/-- Characters without brackets leave the shape of a line as it is. -/
theorem sameShape_lengthened (hextra : Text.BracketFree extra) (index : Nat) (line : Line) :
    (line.lengthened index extra).SameShape line := by
  by_cases hline : line.index = index ∧ line.isBlank = false
  · obtain ⟨hindex, hblank⟩ := hline
    have hchars := chars_lengthened hindex hblank extra
    have hkept : (line.lengthened index extra).index = line.index := by
      rw [lengthened, if_pos ⟨hindex, hblank⟩]
    have htrim : Text.trim line.chars ≠ [] := by simpa [isBlank, trimmed] using hblank
    have hhead : (line.lengthened index extra).trimmed.head? = line.trimmed.head? := by
      rw [trimmed, trimmed, hchars, Text.head?_trim_append htrim]
    have hnonblank : (line.lengthened index extra).isBlank = line.isBlank := by
      rw [hblank, isBlank, List.isEmpty_eq_false_iff]
      intro hnil
      rw [hnil, List.head?_nil] at hhead
      exact htrim (List.head?_eq_none_iff.1 hhead.symm)
    exact
      { index_eq := hkept
        isComment_eq := by rw [lengthened, if_pos ⟨hindex, hblank⟩]
        isBlank_eq := hnonblank
        opensList_iff := by rw [hhead]
        parens_eq := by
          rw [hchars, Bracket.net_append, hextra.net_eq_zero (Or.inl rfl), Int.add_zero]
        braces_eq := by
          rw [hchars, Bracket.net_append, hextra.net_eq_zero (Or.inr rfl), Int.add_zero]
        interface_eq := Body.ofLine?_longer hkept hchars hextra
        signature_eq := Draft.ofLine?_longer hkept hchars hextra
        receiver_eq := ReceiverMethod.ofLine?_longer hkept hchars hextra }
  · rw [lengthened, if_neg hline]
    exact .refl line

/-- A line comment behind a line makes no difference to a scan. -/
theorem alike_lengthened {comment : List Char} (hbrackets : Text.BracketFree comment) (index : Nat)
    (line : Line) : (line.lengthened index (' ' :: '/' :: '/' :: comment)).Alike line := by
  have hextra : Text.BracketFree (' ' :: '/' :: '/' :: comment) := by
    simpa [Text.BracketFree] using hbrackets
  refine ⟨sameShape_lengthened hextra index line, ?_⟩
  by_cases hline : line.index = index ∧ line.isBlank = false
  · rw [chars_lengthened hline.1 hline.2, tailAfterLastParen_append]
  · rw [lengthened, if_neg hline]

end Line

/-! ## Documents -/

/-- A text with a line comment at the end of a line. -/
def withLineComment (text : String) (index : Nat) (comment : String) : String :=
  String.ofList (Text.appendToLine (" //".toList ++ comment.toList) index text.toList)

namespace Document

/-- A line of a text can take a line comment at its end: it is neither blank nor a comment line, and
at its end the lexer is in code or in a line comment already. -/
structure TakesComment (text : String) (index : Nat) (line : Line) (lexed : LexedLine) : Prop where
  line_eq : (ofText text).line? index = some line
  lexed_eq : (Lexer.lines text.toList)[index]? = some lexed
  not_comment : line.isComment = false
  not_blank : line.isBlank = false
  mode : lexed.modeAt line.chars.length = .code ∨ lexed.modeAt line.chars.length = .line

/-- What is kept of a line comment is a line comment, also if a carriage return at its end is
lost. -/
theorem exists_kept {comment kept : List Char}
    (h : ' ' :: '/' :: '/' :: comment = kept ∨ ' ' :: '/' :: '/' :: comment = kept ++ ['\r']) :
    ∃ comment', kept = ' ' :: '/' :: '/' :: comment' ∧ comment' ⊆ comment := by
  rcases h with rfl | h
  · exact ⟨comment, rfl, List.Subset.refl _⟩
  · rcases List.eq_nil_or_concat' comment with rfl | ⟨front, last, rfl⟩
    · simp [List.cons_eq_append_iff] at h
    · refine ⟨front, ?_, List.subset_append_left _ _⟩
      have hsplit : (' ' :: '/' :: '/' :: front) ++ [last] = kept ++ ['\r'] := h
      exact (List.append_inj' hsplit rfl).1.symm

/-- The line of the document and the lexed line are at the same place of the text. -/
theorem TakesComment.exists_start {text : String} {index : Nat} {line : Line} {lexed : LexedLine}
    (h : TakesComment text index line lexed) :
    '\n' ∉ line.chars ∧ ∃ start : Lexer.Mode, (start = .code ∨ start = .block) ∧
      blockBehind false ((Text.splitLines text.toList).take index) = decide (start = .block) ∧
      (Lexer.behind start (Lexer.lex start line.chars) = .code ∨
        Lexer.behind start (Lexer.lex start line.chars) = .line) := by
  obtain ⟨chars, tail, hchars, hfeed, hglyphs, hstart, hblock⟩ :=
    Lexer.exists_lexed (Or.inl rfl) h.lexed_eq
  obtain rfl : line.chars = chars :=
    Option.some.inj ((splitLines_of_line? h.line_eq).symm.trans hchars)
  refine ⟨hfeed, lexed.start, hstart, hblock, ?_⟩
  have hlength : (Lexer.lex lexed.start line.chars).length = line.chars.length := by
    rw [← List.length_map, Lexer.map_char_lex]
  have hmode := h.mode
  rwa [LexedLine.modeAt, hglyphs, List.take_left' hlength] at hmode

/-- The line of a text between some lines and others. -/
theorem line?_of_splitLines {text : String} {front back : List (List Char)} {chars : List Char}
    (htext : Text.splitLines text.toList = front ++ chars :: back) :
    (ofText text).line? front.length = some
      { index := front.length
        text := String.ofList chars
        isComment := (classify (blockBehind false front) chars).isComment } := by
  rw [line?, lines_of_splitLines htext, List.getElem?_append_right (by rw [length_markLines]),
    length_markLines, Nat.sub_self, markLines]
  rfl

/-- The lines of a text in which a line that takes comments has become longer.  A carriage return at
its end may be lost. -/
theorem exists_lines_appendToLine {text : String} {index : Nat} {line : Line} {lexed : LexedLine}
    (h : TakesComment text index line lexed) {extra : List Char} (hfeed : '\n' ∉ extra)
    (htrails : ∀ kept, extra = kept ∨ extra = kept ++ ['\r'] → Lexer.Trails kept) :
    ∃ kept, (extra = kept ∨ extra = kept ++ ['\r']) ∧
      (ofText (String.ofList (Text.appendToLine extra index text.toList))).lines =
        (ofText text).lines.map (Line.lengthened index kept) := by
  obtain ⟨hno, start, hstart, hblock, hmode⟩ := h.exists_start
  obtain ⟨front, back, kept, hfront, htext, hkept, hlonger⟩ :=
    Text.splitLines_appendToLine hfeed (splitLines_of_line? h.line_eq)
  refine ⟨kept, hkept, ?_⟩
  rw [htext, List.take_left' hfront] at hblock
  have hline : line =
      { index := front.length
        text := String.ofList line.chars
        isComment := (classify (blockBehind false front) line.chars).isComment } := by
    rw [← Option.some_inj, ← h.line_eq, ← hfront, line?_of_splitLines htext]
  have hcode : (classify (decide (start = .block)) line.chars).isComment = false := by
    rw [← hblock]
    exact (congrArg Line.isComment hline).symm.trans h.not_comment
  have hblank : Text.trim line.chars ≠ [] := by
    simpa [Line.isBlank, Line.trimmed] using h.not_blank
  have hverdict := Lexer.classify_append hstart hno (htrails kept hkept) hmode hcode hblank
  have hedited : (ofText (String.ofList (Text.appendToLine extra index text.toList))).lines = _ :=
    lines_of_splitLines (by rw [String.toList_ofList, hlonger])
  have horiginal := lines_of_splitLines htext
  rw [hblock] at hline
  rw [markLines, hblock, hverdict] at hedited
  rw [markLines, hblock, ← hline] at horiginal
  have hlines := ofText_ascending text
  rw [horiginal] at hlines
  have hindex : line.index = index := (congrArg Line.index hline).trans hfront
  have hkeep : ∀ lines : List Line, (∀ other ∈ lines, other.index ≠ index) →
      lines.map (Line.lengthened index kept) = lines := by
    intro lines hne
    rw [List.map_congr_left fun other hother => Line.lengthened_of_ne (hne other hother) kept,
      List.map_id']
  have hlonger : line.lengthened index kept =
      { index := front.length
        text := String.ofList (line.chars ++ kept)
        isComment := (classify (decide (start = .block)) line.chars).isComment } := by
    rw [Line.lengthened, if_pos ⟨hindex, h.not_blank⟩, hindex, hfront, h.not_comment, hcode]
  rw [hedited, horiginal, List.map_append, List.map_cons, hlonger, hkeep, hkeep]
  · intro other hother
    have := List.rel_of_pairwise_cons hlines.of_append_right hother
    omega
  · intro other hother
    have := hlines.lt_of_append hother (List.mem_cons_self ..)
    omega

/-- The lines of the longer text are like those of the text. -/
theorem lines_withLineComment {text : String} {index : Nat} {line : Line} {lexed : LexedLine}
    (h : TakesComment text index line lexed) {comment : String} (hfeed : '\n' ∉ comment.toList)
    (hbrackets : Text.BracketFree comment.toList) :
    List.Forall₂ Line.Alike (ofText (withLineComment text index comment)).lines
      (ofText text).lines := by
  have hextra : '\n' ∉ " //".toList ++ comment.toList := by simpa using hfeed
  obtain ⟨kept, hkept, hlines⟩ := exists_lines_appendToLine h hextra fun kept hkept => by
    obtain ⟨comment', rfl, hsubset⟩ := exists_kept hkept
    exact Lexer.trails_lineComment fun hmem => hfeed (hsubset hmem)
  obtain ⟨comment', rfl, hsubset⟩ := exists_kept hkept
  rw [withLineComment, hlines, List.forall₂_map_left_iff, List.forall₂_same]
  exact fun line _ => Line.alike_lengthened (fun c hc => hbrackets c (hsubset hc)) index line

/-- A line comment behind a line that takes one changes nothing that a scan finds, whatever the
lookahead. -/
theorem outline_withLineComment {text : String} {index : Nat} {line : Line} {lexed : LexedLine}
    (h : TakesComment text index line lexed) {comment : String} (hfeed : '\n' ∉ comment.toList)
    (hbrackets : ∀ c ∈ comment.toList, c ∉ ['(', ')', '\x7b', '\x7d']) (lookahead : Nat) :
    (ofText (withLineComment text index comment)).outline lookahead =
        (ofText text).outline lookahead ∧
      (ofText (withLineComment text index comment)).hints lookahead =
        (ofText text).hints lookahead := by
  have houtline := outline_alike (lines_withLineComment h hfeed hbrackets) lookahead
  exact ⟨houtline, by rw [hints, hints, houtline]⟩

/-- A signature with the mark of a comment in a literal, and a result list on the next line. -/
def quotedMarkText : String :=
  "type R interface \x7b\n\tGet(key [len(\"//\")]byte)\n\t(n int, err error)\n\x7d\n"

theorem quotedMarkText_takesComment :
    TakesComment quotedMarkText 1 ⟨1, "\tGet(key [len(\"//\")]byte)", false⟩
      ⟨.code, Lexer.lex .code "\tGet(key [len(\"//\")]byte)\n".toList⟩ where
  line_eq := by decide +kernel
  lexed_eq := by decide +kernel
  not_comment := rfl
  not_blank := by decide +kernel
  mode := Or.inl (by decide +kernel)

theorem outline_withLineComment_quotedMark :
    withLineComment quotedMarkText 1 " isn't \x60*/" =
        "type R interface \x7b\n\tGet(key [len(\"//\")]byte) // isn't \x60*/\n" ++
          "\t(n int, err error)\n\x7d\n" ∧
      (ofText (withLineComment quotedMarkText 1 " isn't \x60*/")).outline 2 =
        (ofText quotedMarkText).outline 2 ∧
      (ofText (withLineComment quotedMarkText 1 " isn't \x60*/")).hints 2 =
        (ofText quotedMarkText).hints 2 := by
  have hbrackets : (" isn't \x60*/".toList.all fun c =>
      decide (c ∉ ['(', ')', '\x7b', '\x7d'])) = true := by decide +kernel
  exact ⟨by decide +kernel, outline_withLineComment quotedMarkText_takesComment (by decide +kernel)
    (fun c hc => of_decide_eq_true (List.all_eq_true.1 hbrackets c hc)) 2⟩

end Document

end Wayfinder
