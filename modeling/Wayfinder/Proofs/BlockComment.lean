import Wayfinder.Proofs.Interface.Tail
import Wayfinder.Proofs.TrailingComment

/-!
# Block comments at the end of a line

A block comment that is put behind the code of a line leaves the verdict on the line and its shape
as they are, just as a line comment does.  But the search for code behind the last parenthesis
knows line comments only, so that it takes a block comment for code.

* `beforeLineComment_of_mark` and `beforeLineComment_of_no_mark` say what the search looks at in a
  line that became longer.
* `addsTail_blockComment`: a block comment keeps the shape of its line and is code behind the last
  parenthesis, unless the line has the mark of a line comment already.
* `Document.outline_blockComment_iff`: both styles of comments give the same outline, except where
  the results of a signature stand behind the line.
-/

namespace Wayfinder

/-- A block comment with a blank in front of it. -/
def blockComment (comment : List Char) : List Char :=
  " /*".toList ++ (comment ++ " */".toList)

theorem getLast?_blockComment (comment : List Char) :
    (blockComment comment).getLast? = some '/' := by
  have hsplit : blockComment comment = " /*".toList ++ comment ++ " *".toList ++ ['/'] := by
    simp [blockComment]
  rw [hsplit, List.getLast?_concat]

/-! ## The verdict on the longer line -/

namespace Lexer

/-- A block comment is not open behind its last mark, and nothing else opens one there. -/
theorem behind_blockEnd (mode : Mode) : behind mode (lex mode " */".toList) ≠ .block := by
  cases mode with
  | code => decide
  | line => decide
  | block => decide
  | literal quote => cases quote <;> decide

theorem trails_blockComment {comment : List Char} (hcomment : '\n' ∉ comment) :
    Trails (blockComment comment) where
  no_feed := by simpa [blockComment] using hcomment
  head := by simp [blockComment, isSeparator]
  behind_ne mode _ := by
    have hsplit : blockComment comment = " /*".toList ++ comment ++ " */".toList := by
      rw [blockComment, List.append_assoc]
    rw [hsplit, lex_append _ _ (by simp [isSeparator]), behind_append]
    exact behind_blockEnd _

end Lexer

/-! ## Code behind the last parenthesis -/

section Tail

variable {line comment : List Char}

/-- Behind the mark of a line comment nothing is looked at. -/
theorem beforeLineComment_of_mark (h : "//".toList <:+: line) (more : List Char) :
    beforeLineComment (line ++ more) = beforeLineComment line := by
  fun_induction beforeLineComment line with
  | case1 => simp at h
  | case2 rest => simp [beforeLineComment]
  | case3 c rest hmark ih =>
    have hrest : "//".toList <:+: rest := by
      apply (List.infix_cons_iff.1 h).resolve_left
      rintro ⟨tail, htail⟩
      obtain ⟨hc, htail⟩ := List.cons.inj htail
      exact hmark tail hc.symm htail.symm
    have hmark' : ∀ tail, c = '/' → rest ++ more ≠ '/' :: tail := by
      intro tail hc heq
      cases rest with
      | nil => simp at hrest
      | cons d rest => exact hmark rest hc (by rw [(List.cons.inj heq).1])
    rw [List.cons_append, beforeLineComment.eq_3 _ _ hmark', ih hrest]

/-- A line without the mark is looked at up to the mark behind it. -/
theorem beforeLineComment_of_no_mark (h : ¬ "//".toList <:+: line) (more : List Char) :
    beforeLineComment (line ++ ' ' :: more) = line ++ ' ' :: beforeLineComment more := by
  induction line with
  | nil => simp [beforeLineComment]
  | cons c line ih =>
    obtain ⟨hfirst, hrest⟩ := not_or.1 (mt List.infix_cons_iff.2 h)
    have hmark : ∀ tail, c = '/' → line ++ ' ' :: more ≠ '/' :: tail := by
      rintro tail rfl heq
      cases line with
      | nil => cases heq
      | cons d line =>
        apply hfirst
        exact ⟨line, by rw [(List.cons.inj heq).1]; rfl⟩
    rw [List.cons_append, beforeLineComment.eq_3 _ _ hmark, ih hrest, List.cons_append]

theorem beforeLineComment_subset (line : List Char) : beforeLineComment line ⊆ line := by
  fun_induction beforeLineComment line with
  | case1 => exact List.Subset.refl _
  | case2 rest => exact List.nil_subset _
  | case3 c rest _ ih => exact List.cons_subset_cons c ih

theorem tailAfterLastParen_of_mark (h : "//".toList <:+: line) (more : List Char) :
    tailAfterLastParen (line ++ more) = tailAfterLastParen line := by
  rw [tailAfterLastParen, beforeLineComment_of_mark h, tailAfterLastParen]

/-- A block comment is code behind the last parenthesis. -/
theorem tailAfterLastParen_blockComment (h : ¬ "//".toList <:+: line)
    (hbrackets : Text.BracketFree comment) :
    tailAfterLastParen (line ++ blockComment comment) ≠ [] := by
  have hbefore : beforeLineComment (line ++ blockComment comment) = line ++ ' ' :: '/' :: '*' ::
      beforeLineComment (comment ++ " */".toList) := by
    have hopening : ∀ more, beforeLineComment ('/' :: '*' :: more) =
        '/' :: '*' :: beforeLineComment more := by simp [beforeLineComment]
    rw [← hopening, ← beforeLineComment_of_no_mark h]
    rfl
  have hkept : ∀ c ∈ (' ' :: '/' :: '*' ::
      beforeLineComment (comment ++ " */".toList)).reverse, (c != ')') = true := by
    intro c hc
    rw [bne_iff_ne]
    rintro rfl
    have hmem : ')' ∈ comment ++ " */".toList :=
      beforeLineComment_subset _ (by simpa using hc)
    rcases List.mem_append.1 hmem with hmem | hmem
    · exact hbrackets.not_mem (by decide) hmem
    · revert hmem
      decide
  have hslash : Text.isBlank '/' = false := by decide
  rw [tailAfterLastParen, hbefore, List.reverse_append, List.takeWhile_append_of_pos hkept]
  exact Text.trim_ne_nil (by simp) hslash

end Tail

theorem bracketFree_blockComment {comment : List Char} (h : Text.BracketFree comment) :
    Text.BracketFree (blockComment comment) := by
  simpa [Text.BracketFree, blockComment, or_imp, forall_and] using h

/-- A block comment behind a line keeps its shape and adds code. -/
theorem addsTail_blockComment {comment : List Char} (hbrackets : Text.BracketFree comment)
    (index : Nat) : AddsTail (Line.lengthened index (blockComment comment)) index where
  sameShape := Line.sameShape_lengthened (bracketFree_blockComment hbrackets) index
  tail_ne_nil line h := by
    by_cases hline : line.index = index ∧ line.isBlank = false
    · rw [Line.chars_lengthened hline.1 hline.2]
      by_cases hmark : "//".toList <:+: line.chars
      · rwa [tailAfterLastParen_of_mark hmark]
      · exact tailAfterLastParen_blockComment hmark hbrackets
    · rwa [Line.lengthened, if_neg hline]
  tail_eq_nil line hne h := by rwa [Line.lengthened_of_ne hne]

/-! ## Documents -/

/-- A text with a block comment at the end of a line. -/
def withBlockComment (text : String) (index : Nat) (comment : String) : String :=
  String.ofList (Text.appendToLine (blockComment comment.toList) index text.toList)

namespace Document

theorem lines_withBlockComment {text : String} {index : Nat} {line : Line} {lexed : LexedLine}
    (h : TakesComment text index line lexed) {comment : String}
    (hfeed : '\n' ∉ comment.toList) :
    (ofText (withBlockComment text index comment)).lines =
      (ofText text).lines.map (Line.lengthened index (blockComment comment.toList)) := by
  have htrails := Lexer.trails_blockComment hfeed
  -- the last character is part of a mark, so that no carriage return is lost
  have hkept : ∀ kept, blockComment comment.toList = kept ∨
      blockComment comment.toList = kept ++ ['\r'] → blockComment comment.toList = kept := by
    intro kept hkept
    apply hkept.resolve_right
    intro hreturn
    have hlast := getLast?_blockComment comment.toList
    rw [hreturn, List.getLast?_concat] at hlast
    cases hlast
  obtain ⟨kept, heq, hlines⟩ := exists_lines_appendToLine h htrails.no_feed
    fun kept heq => hkept kept heq ▸ htrails
  rw [withBlockComment, hlines, hkept kept heq]

/-- A block comment and a line comment behind a line that takes comments give the same outline,
whatever the lookahead, exactly if the line holds the mark of a line comment already or no results
of a signature that closes its parameters on the line stand behind it.  In any case they differ in
nothing but the signatures of interfaces.  Brackets may be counted in any way that is good enough
for the text. -/
theorem outline_blockComment_iff {counting : Counting} {text : String}
    (hfits : counting.Fits text) {index : Nat} {line : Line} {lexed : LexedLine}
    (h : TakesComment text index line lexed) {comment : String} (hfeed : '\n' ∉ comment.toList)
    (hbrackets : ∀ c ∈ comment.toList, c ∉ ['(', ')', '\x7b', '\x7d']) (lookahead : Nat) :
    ((ofText (withBlockComment text index comment)).outline lookahead =
          (ofText (withLineComment text index comment)).outline lookahead ↔
        "//".toList <:+: line.chars ∨ ¬ (ofText text).ResultsBehind counting lookahead index) ∧
      (ofText (withBlockComment text index comment)).receiverMethods =
        (ofText (withLineComment text index comment)).receiverMethods ∧
      ((ofText (withBlockComment text index comment)).interfaces lookahead).map
          Interface.heading =
        ((ofText (withLineComment text index comment)).interfaces lookahead).map
          Interface.heading := by
  have hlines := lines_withBlockComment h hfeed
  have hadds := addsTail_blockComment hbrackets index
  have hshape : List.Forall₂ Line.SameShape (ofText (withBlockComment text index comment)).lines
      (ofText text).lines := by
    rw [hlines]
    exact hadds.forall₂_sameShape _
  have hsame : ∀ other ∈ (ofText text).lines, other.index = index → other = line := by
    intro other hother heq
    exact (ofText_ascending text).eq_of_index_eq hother (List.mem_of_getElem? h.line_eq)
      (heq.trans (index_of_line? h.line_eq).symm)
  have houtline := outline_alike (lines_withLineComment h hfeed hbrackets) lookahead
  refine ⟨?_, ?_, ?_⟩
  · rw [houtline]
    by_cases hmark : "//".toList <:+: line.chars
    · simp only [hmark, true_or, iff_true]
      apply outline_alike
      rw [hlines, List.forall₂_map_left_iff, List.forall₂_same]
      intro other hother
      refine ⟨hadds.sameShape other, ?_⟩
      by_cases heq : other.index = index
      · obtain rfl := hsame other hother heq
        rw [Line.chars_lengthened heq h.not_blank, tailAfterLastParen_of_mark hmark]
      · rw [Line.lengthened_of_ne heq]
    · simp only [hmark, false_or]
      apply outline_eq_iff hfits hadds hlines
      intro other hother heq
      obtain rfl := hsame other hother heq
      rw [Line.chars_lengthened heq h.not_blank]
      exact tailAfterLastParen_blockComment hmark hbrackets
  · have hreceivers := congrArg Outline.receiverMethods houtline
    exact (receiverMethods_sameShape hshape).trans hreceivers.symm
  · have hinterfaces := congrArg Outline.interfaces houtline
    have hheadings := interfaces_map_heading hshape lookahead
    exact hheadings.trans (congrArg (List.map Interface.heading) hinterfaces).symm

/-- A signature with its results on the next line, behind a line comment. -/
def markedText : String :=
  "type R interface \x7b\n\tGet() // of\n\t(n int, err error)\n\x7d\n"

theorem markedText_takesComment :
    TakesComment markedText 1 ⟨1, "\tGet() // of", false⟩
      ⟨.code, Lexer.lex .code "\tGet() // of\n".toList⟩ where
  line_eq := by decide +kernel
  lexed_eq := by decide +kernel
  not_comment := rfl
  not_blank := by decide
  mode := Or.inr (by decide)

theorem outline_blockComment_iff_marked :
    withBlockComment markedText 1 " isn't \x60" =
        "type R interface \x7b\n\tGet() // of /* isn't \x60 */\n\t(n int, err error)\n\x7d\n" ∧
      "//".toList <:+: "\tGet() // of".toList ∧
      (ofText (withBlockComment markedText 1 " isn't \x60")).outline 2 =
        (ofText (withLineComment markedText 1 " isn't \x60")).outline 2 := by
  have hbrackets : (" isn't \x60".toList.all fun c =>
      decide (c ∉ ['(', ')', '\x7b', '\x7d'])) = true := by decide
  have hmark : "//".toList <:+: "\tGet() // of".toList :=
    ⟨"\tGet() ".toList, " of".toList, by decide⟩
  have hfits : Counting.exact.Fits markedText := Or.inr (by decide)
  have hiff := outline_blockComment_iff hfits markedText_takesComment
    (by decide : '\n' ∉ " isn't \x60".toList)
    (fun c hc => of_decide_eq_true (List.all_eq_true.1 hbrackets c hc)) 2
  exact ⟨by decide +kernel, hmark, hiff.1.2 (Or.inl hmark)⟩

/-- A signature with its results on the next line. -/
def resultsText : String :=
  "type R interface \x7b\n\tGet()\n\t(n int, err error)\n\x7d\n"

theorem resultsText_takesComment :
    TakesComment resultsText 1 ⟨1, "\tGet()", false⟩
      ⟨.code, Lexer.lex .code "\tGet()\n".toList⟩ where
  line_eq := by decide +kernel
  lexed_eq := by decide +kernel
  not_comment := rfl
  not_blank := by decide
  mode := Or.inl (by decide)

/-- Behind a block comment the results are lost, and behind a line comment they are not. -/
theorem blockComment_cuts_results :
    TakesComment resultsText 1 ⟨1, "\tGet()", false⟩
        ⟨.code, Lexer.lex .code "\tGet()\n".toList⟩ ∧
      (ofText (withBlockComment resultsText 1 " x")).outline 3 =
        ⟨[⟨"R", 0, 3, [⟨"R", "Get", 1, 1, 1⟩]⟩], []⟩ ∧
      (ofText (withLineComment resultsText 1 " x")).outline 3 =
        ⟨[⟨"R", 0, 3, [⟨"R", "Get", 1, 1, 2⟩]⟩], []⟩ :=
  ⟨resultsText_takesComment, by decide +kernel, by decide +kernel⟩

end Document

end Wayfinder
