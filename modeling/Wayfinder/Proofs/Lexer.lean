import Wayfinder.Proofs.Classification
import Wayfinder.Proofs.Lines

/-!
# A lexer for whole texts

Comment lines are marked line by line, with one bit carried from a line to the next.  This
module lexes a text in one go and shows that the marks say the same.

* `Lexer.lex` runs over a text and notes for each character which part of the text it
  belongs to: code, a literal, the start of a comment, or the rest of one.
* `Lexer.lines` cuts what the lexer notes behind each line feed.
* `LexedLine.CommentOnly` says that a line touches a comment and is blank outside of
  comments.
* `Document.ofText_refines_lexer` says that the lines of a document are the lexed lines, and
  that the comment lines among them are those that hold comment only.
-/

namespace Wayfinder

/-! ## The lexer -/

/-- The quotes of strings, runes and raw strings. -/
inductive Quote where
  | double
  | single
  | back
deriving Repr, DecidableEq

namespace Quote

/-- The character that opens and closes the literal. -/
def char : Quote → Char
  | .double => '"'
  | .single => '\''
  | .back => '\x60'

/-- The quote that a character is, if it is one. -/
def ofChar? (c : Char) : Option Quote :=
  if c = '"' then some .double
  else if c = '\'' then some .single
  else if c = '\x60' then some .back
  else none

end Quote

namespace Lexer

/-- What a lexer is inside of. -/
inductive Mode where
  | code
  /-- A comment that ends with the line. -/
  | line
  /-- A comment that ends with a mark of its own. -/
  | block
  | literal (quote : Quote)
deriving Repr, DecidableEq

/-- What a character belongs to. -/
inductive Part where
  | code
  | literal
  /-- A comment that starts with the character. -/
  | opening
  /-- A comment that started before the character. -/
  | comment
deriving Repr, DecidableEq

/-- A character of a text, what it belongs to, and what the lexer is inside of behind it. -/
structure Glyph where
  char : Char
  part : Part
  mode : Mode
deriving Repr, DecidableEq

/-- The characters of a text that starts inside of something.  A literal that does not close on
its line ends with the line.  A backslash hides the next character of a literal, unless the
literal is raw. -/
def lex : Mode → List Char → List Glyph
  | _, [] => []
  | .code, '/' :: '/' :: rest =>
      ⟨'/', .opening, .line⟩ :: ⟨'/', .comment, .line⟩ :: lex .line rest
  | .code, '/' :: '*' :: rest =>
      ⟨'/', .opening, .block⟩ :: ⟨'*', .comment, .block⟩ :: lex .block rest
  | .code, c :: rest =>
      match Quote.ofChar? c with
      | some quote => ⟨c, .literal, .literal quote⟩ :: lex (.literal quote) rest
      | none => ⟨c, .code, .code⟩ :: lex .code rest
  | .line, c :: rest =>
      if c = '\n' then ⟨c, .code, .code⟩ :: lex .code rest
      else ⟨c, .comment, .line⟩ :: lex .line rest
  | .block, '*' :: '/' :: rest =>
      ⟨'*', .comment, .block⟩ :: ⟨'/', .comment, .code⟩ :: lex .code rest
  | .block, c :: rest => ⟨c, .comment, .block⟩ :: lex .block rest
  | .literal quote, '\\' :: c :: rest =>
      if quote = .back ∨ c = '\n' then
        ⟨'\\', .literal, .literal quote⟩ :: lex (.literal quote) (c :: rest)
      else
        ⟨'\\', .literal, .literal quote⟩ :: ⟨c, .literal, .literal quote⟩ ::
          lex (.literal quote) rest
  | .literal quote, c :: rest =>
      if c = '\n' then ⟨c, .code, .code⟩ :: lex .code rest
      else if c = quote.char then ⟨c, .literal, .code⟩ :: lex .code rest
      else ⟨c, .literal, .literal quote⟩ :: lex (.literal quote) rest

/-- What the lexer is inside of behind some characters. -/
def behind (start : Mode) (glyphs : List Glyph) : Mode :=
  (glyphs.getLast?.map Glyph.mode).getD start

end Lexer

/-! ## Lexed lines -/

/-- A line of a lexed text. -/
structure LexedLine where
  /-- What the lexer is inside of in front of the line. -/
  start : Lexer.Mode
  /-- The characters of the line and of its ending. -/
  glyphs : List Lexer.Glyph
deriving Repr, DecidableEq

namespace Lexer

/-- The characters of a text, cut behind each line feed. -/
def cut (start : Mode) : List Glyph → List LexedLine
  | [] => []
  | glyph :: rest =>
      if glyph.char = '\n' then ⟨start, [glyph]⟩ :: cut glyph.mode rest
      else
        match cut glyph.mode rest with
        | [] => [⟨start, [glyph]⟩]
        | line :: more => ⟨start, glyph :: line.glyphs⟩ :: more

/-- The lexed lines of a text. -/
def lines (text : List Char) : List LexedLine :=
  cut .code (lex .code text)

end Lexer

namespace LexedLine

/-- What the lexer is inside of at a column of the line. -/
def modeAt (line : LexedLine) (column : Nat) : Lexer.Mode :=
  Lexer.behind line.start (line.glyphs.take column)

/-- The line starts inside a comment or holds the start of one, and outside of comments it is
blank. -/
structure CommentOnly (line : LexedLine) : Prop where
  touches : line.start = .block ∨ ∃ glyph ∈ line.glyphs, glyph.part = .opening
  blank : ∀ glyph ∈ line.glyphs, glyph.char ≠ '\n' → glyph.part = .code ∨ glyph.part = .literal →
    glyph.char ∈ [' ', '\t', '\x0C', '\r']

end LexedLine

namespace Quote

theorem char_of_ofChar? {c : Char} {quote : Quote} (h : ofChar? c = some quote) :
    c = quote.char := by
  rw [ofChar?] at h
  split_ifs at h with hdouble hsingle hback
  · rw [hdouble, ← Option.some.inj h]
    rfl
  · rw [hsingle, ← Option.some.inj h]
    rfl
  · rw [hback, ← Option.some.inj h]
    rfl

theorem char_eq_back_iff (quote : Quote) : quote.char = '\x60' ↔ quote = .back := by
  cases quote <;> decide

theorem isQuote_eq (c : Char) : isQuote c = (ofChar? c).isSome := by
  rw [ofChar?, isQuote]
  split_ifs <;> simp_all

theorem not_isAsciiBlank_char (quote : Quote) : Text.isAsciiBlank quote.char = false := by
  cases quote <;> rfl

end Quote

namespace Lexer

/-! ## Lexing piece by piece -/

attribute [local simp] lex

section Equations

variable {c : Char} {rest : List Char} {quote : Quote}

theorem lex_code_cons (hline : ∀ more, c = '/' → rest ≠ '/' :: more)
    (hblock : ∀ more, c = '/' → rest ≠ '*' :: more) :
    lex .code (c :: rest) =
      match Quote.ofChar? c with
      | some quote => ⟨c, .literal, .literal quote⟩ :: lex (.literal quote) rest
      | none => ⟨c, .code, .code⟩ :: lex .code rest :=
  lex.eq_4 c rest hline hblock

theorem lex_block_cons (hclose : ∀ more, c = '*' → rest ≠ '/' :: more) :
    lex .block (c :: rest) = ⟨c, .comment, .block⟩ :: lex .block rest :=
  lex.eq_7 c rest hclose

theorem lex_literal_cons (hhidden : ∀ d more, c = '\\' → rest ≠ d :: more) :
    lex (.literal quote) (c :: rest) =
      if c = '\n' then ⟨c, .code, .code⟩ :: lex .code rest
      else if c = quote.char then ⟨c, .literal, .code⟩ :: lex .code rest
      else ⟨c, .literal, .literal quote⟩ :: lex (.literal quote) rest :=
  lex.eq_9 quote c rest hhidden

end Equations

@[simp] theorem behind_nil (start : Mode) : behind start [] = start := rfl

@[simp] theorem behind_cons (start : Mode) (glyph : Glyph) (glyphs : List Glyph) :
    behind start (glyph :: glyphs) = behind glyph.mode glyphs := by
  rw [behind, behind, List.getLast?_cons]
  cases glyphs.getLast? <;> rfl

theorem behind_append (start : Mode) (glyphs more : List Glyph) :
    behind start (glyphs ++ more) = behind (behind start glyphs) more := by
  induction glyphs generalizing start with
  | nil => rfl
  | cons glyph glyphs ih => rw [List.cons_append, behind_cons, behind_cons, ih]

/-- The lexer neither drops nor changes a character. -/
theorem map_char_lex (mode : Mode) (text : List Char) :
    (lex mode text).map Glyph.char = text := by
  fun_induction lex mode text <;> simp_all

/-- A character that ends every mark: it is no part of one, no quote and no backslash. -/
def isSeparator (c : Char) : Bool :=
  c == '\n' || c == '\r' || c == ' '

/-- No mark goes on into a text that starts with a separator. -/
theorem append_ne_cons {text more : List Char} {d : Char} (hd : isSeparator d = false)
    (hmore : ∀ c ∈ more.head?, isSeparator c = true) (htext : ∀ rest, text ≠ d :: rest)
    (rest : List Char) : text ++ more ≠ d :: rest := by
  intro heq
  cases text with
  | nil =>
    obtain rfl : more = d :: rest := heq
    rw [hmore d rfl] at hd
    cases hd
  | cons c text => exact htext text (by rw [(List.cons.inj heq).1])

/-- A separator behind a backslash is hidden or not, and is part of the literal in both cases. -/
theorem lex_literal_separator {quote : Quote} {more : List Char}
    (hmore : ∀ c ∈ more.head?, isSeparator c = true) :
    lex (.literal quote) ('\\' :: more) =
      ⟨'\\', .literal, .literal quote⟩ :: lex (.literal quote) more := by
  have hbackslash : '\\' ≠ quote.char := by cases quote <;> decide
  cases more with
  | nil => rw [lex_literal_cons (by simp), if_neg (by decide), if_neg hbackslash]
  | cons d rest =>
    rw [lex.eq_8]
    split
    · rfl
    · rename_i hhidden
      have hfeed : d ≠ '\n' := fun hd => hhidden (Or.inr hd)
      have hseparator := hmore d rfl
      have hquote : d ≠ quote.char := by
        rintro rfl
        cases quote <;> cases hseparator
      have hplain : ∀ e more, d = '\\' → rest ≠ e :: more := by
        rintro e more rfl
        cases hseparator
      rw [lex_literal_cons hplain, if_neg hfeed, if_neg hquote]

/-- A text is lexed piece by piece, if each piece but the first starts with a separator. -/
theorem lex_append (mode : Mode) (text : List Char) {more : List Char}
    (hmore : ∀ c ∈ more.head?, isSeparator c = true) :
    lex mode (text ++ more) = lex mode text ++ lex (behind mode (lex mode text)) more := by
  -- where the first piece ends with half of a mark, the separator leaves it at that
  have hapart {c d e : Char} {rest : List Char} (hd : isSeparator d = false)
      (h : ∀ behind, c = e → rest ≠ d :: behind) (behind : List Char) (hc : c = e) :
      rest ++ more ≠ d :: behind :=
    append_ne_cons hd hmore (h · hc) behind
  fun_induction lex mode text with
  | case1 => rfl
  | case2 rest ih => simp [ih]
  | case3 rest ih => simp [ih]
  | case4 c rest hline hblock quote hquote ih =>
    rw [List.cons_append, lex_code_cons (hapart rfl hline) (hapart rfl hblock), hquote]
    simp [ih]
  | case5 c rest hline hblock hquote ih =>
    rw [List.cons_append, lex_code_cons (hapart rfl hline) (hapart rfl hblock), hquote]
    simp [ih]
  | case6 rest ih => simp [ih]
  | case7 c rest hc ih => simp [ih, hc]
  | case8 rest ih => simp [ih]
  | case9 c rest hclose ih =>
    rw [List.cons_append, lex_block_cons (hapart rfl hclose)]
    simp [ih]
  | case10 quote c rest hraw ih =>
    rw [List.cons_append, List.cons_append, lex.eq_8, if_pos hraw, ← List.cons_append, ih]
    simp
  | case11 quote c rest hraw ih => simp [ih, hraw]
  | case12 quote rest _ ih =>
    rw [List.cons_append, lex_literal_cons (by rintro _ _ ⟨⟩), if_pos rfl]
    simp [ih]
  | case13 quote rest _ hfeed ih =>
    have hplain : quote.char ≠ '\\' := by cases quote <;> decide
    rw [List.cons_append, lex_literal_cons (fun _ _ h => absurd h hplain), if_neg hfeed, if_pos rfl]
    simp [ih]
  | case14 quote c rest hhidden hfeed hquote ih =>
    by_cases hc : c = '\\'
    · obtain rfl : rest = [] := List.eq_nil_iff_forall_not_mem.2 fun d hd => by
        obtain ⟨e, more, rfl⟩ := List.exists_cons_of_ne_nil (List.ne_nil_of_mem hd)
        exact hhidden e more hc rfl
      rw [hc, List.singleton_append, lex_literal_separator hmore]
      rfl
    · rw [List.cons_append, lex_literal_cons (fun _ _ h => absurd h hc), if_neg hfeed,
        if_neg hquote]
      simp [ih]

/-! ## Comment lines -/

/-- Some of the characters start a comment. -/
def opens (glyphs : List Glyph) : Bool :=
  glyphs.any fun glyph => decide (glyph.part = .opening)

/-- Some of the characters outside of comments are not blank. -/
def shows (glyphs : List Glyph) : Bool :=
  glyphs.any fun glyph =>
    decide (glyph.part = .code ∨ glyph.part = .literal) && !Text.isAsciiBlank glyph.char

section Marks

variable (glyph : Glyph) (glyphs more : List Glyph)

@[simp] theorem opens_nil : opens [] = false := rfl

@[simp] theorem opens_cons :
    opens (glyph :: glyphs) = (decide (glyph.part = .opening) || opens glyphs) := rfl

@[simp] theorem opens_append : opens (glyphs ++ more) = (opens glyphs || opens more) :=
  List.any_append

@[simp] theorem shows_nil : shows [] = false := rfl

@[simp] theorem shows_cons :
    shows (glyph :: glyphs) =
      (decide (glyph.part = .code ∨ glyph.part = .literal) && !Text.isAsciiBlank glyph.char ||
        shows glyphs) := rfl

@[simp] theorem shows_append : shows (glyphs ++ more) = (shows glyphs || shows more) :=
  List.any_append

end Marks

/-- The zone of a line that a lexer is in, unless a comment takes the rest of the line. -/
def Mode.zone : Mode → Zone Char
  | .code => .code
  | .line => .code
  | .block => .block
  | .literal quote => .literal quote.char

/-- A line comment takes the rest of the line, whatever stands there. -/
theorem lex_line {text : List Char} (h : '\n' ∉ text) :
    opens (lex .line text) = false ∧ shows (lex .line text) = false ∧
      behind .line (lex .line text) = .line := by
  induction text with
  | nil => exact ⟨rfl, rfl, rfl⟩
  | cons c rest ih =>
    obtain ⟨hc, hrest⟩ := not_or.1 (mt List.mem_cons.2 h)
    rw [lex, if_neg (Ne.symm hc)]
    simpa using ih hrest

/-- The verdict on the rest of a line without line feeds is what the lexer notes about it.  An open
literal has been noted as code. -/
theorem classifyFrom_eq (mode : Mode) (hmode : mode ≠ .line) {text : List Char}
    (hfeed : '\n' ∉ text) (comment code : Bool)
    (hliteral : ∀ quote, mode = .literal quote → code = true) :
    classifyFrom mode.zone comment code text =
      { isComment := (comment || opens (lex mode text)) && !(code || shows (lex mode text))
        inBlock := decide (behind mode (lex mode text) = .block) } := by
  -- the lexer and the verdict take the line apart in the same way; inside a literal there is code
  -- already, so that the rest of the line no longer matters
  fun_induction lex mode text generalizing comment code with
  | case1 mode => cases mode <;> simp [Mode.zone, classifyFrom]
  | case2 rest _ =>
    have hrest := List.not_mem_of_not_mem_cons (List.not_mem_of_not_mem_cons hfeed)
    obtain ⟨hopens, hshows, hbehind⟩ := lex_line hrest
    simp [Mode.zone, classifyFrom, hopens, hshows, hbehind]
  | case3 rest ih =>
    have hrest := List.not_mem_of_not_mem_cons (List.not_mem_of_not_mem_cons hfeed)
    simpa [Mode.zone, classifyFrom] using ih nofun hrest true code nofun
  | case4 c rest hline hblock quote hquote ih =>
    have hrest := List.not_mem_of_not_mem_cons hfeed
    obtain rfl := Quote.char_of_ofChar? hquote
    have h := ih nofun hrest comment true fun _ _ => rfl
    simpa [Mode.zone, classifyFrom, hline, hblock, Quote.isQuote_eq, hquote,
      Quote.not_isAsciiBlank_char] using h
  | case5 c rest hline hblock hquote ih =>
    have hrest := List.not_mem_of_not_mem_cons hfeed
    have h := ih nofun hrest comment (code || !Text.isAsciiBlank c) nofun
    simpa [Mode.zone, classifyFrom, hline, hblock, Quote.isQuote_eq, hquote, Bool.or_assoc] using h
  | case6 => exact absurd rfl hmode
  | case7 => exact absurd rfl hmode
  | case8 rest ih =>
    have hrest := List.not_mem_of_not_mem_cons (List.not_mem_of_not_mem_cons hfeed)
    simpa [Mode.zone, classifyFrom] using ih nofun hrest comment code nofun
  | case9 c rest hclose ih =>
    have hrest := List.not_mem_of_not_mem_cons hfeed
    simpa [Mode.zone, classifyFrom, hclose] using ih nofun hrest comment code nofun
  | case10 quote c rest hraw ih =>
    obtain rfl : quote = .back := hraw.resolve_right (by rintro rfl; simp at hfeed)
    obtain rfl := hliteral .back rfl
    have hrest := List.not_mem_of_not_mem_cons hfeed
    simpa [Mode.zone, classifyFrom, Quote.char] using ih nofun hrest comment true fun _ _ => rfl
  | case11 quote c rest hraw ih =>
    obtain rfl := hliteral quote rfl
    have hrest := List.not_mem_of_not_mem_cons (List.not_mem_of_not_mem_cons hfeed)
    have hquote : quote ≠ .back := fun hback => hraw (Or.inl hback)
    simpa [Mode.zone, classifyFrom, Quote.char_eq_back_iff, hquote] using
      ih nofun hrest comment true fun _ _ => rfl
  | case12 => simp at hfeed
  | case13 quote rest hhidden _ ih =>
    obtain rfl := hliteral quote rfl
    have hrest := List.not_mem_of_not_mem_cons hfeed
    simpa [Mode.zone, classifyFrom, hhidden] using ih nofun hrest comment true nofun
  | case14 quote c rest hhidden _ hquote ih =>
    obtain rfl := hliteral quote rfl
    have hrest := List.not_mem_of_not_mem_cons hfeed
    simpa [Mode.zone, classifyFrom, hhidden, hquote] using
      ih nofun hrest comment true fun _ _ => rfl

/-! ## Lexing line by line -/

/-- What the lexer is inside of behind a separator.  Only a block comment goes on in the next
line. -/
def Mode.past (mode : Mode) (c : Char) : Mode :=
  if c = '\n' ∧ mode ≠ .block then .code else mode

theorem Mode.past_feed (mode : Mode) : mode.past '\n' = .code ∨ mode.past '\n' = .block := by
  by_cases hblock : mode = .block <;> simp [past, hblock]

theorem Mode.past_feed_eq_block_iff (mode : Mode) : mode.past '\n' = .block ↔ mode = .block := by
  by_cases hblock : mode = .block <;> simp [past, hblock]

/-- A separator opens and closes nothing but lines. -/
theorem lex_separator (mode : Mode) {c : Char} (hc : isSeparator c = true) (rest : List Char) :
    ∃ glyph, glyph.char = c ∧ glyph.part ≠ .opening ∧ glyph.mode = mode.past c ∧
      lex mode (c :: rest) = glyph :: lex (mode.past c) rest := by
  have hplain : ∀ d, isSeparator d = false → c ≠ d := by
    rintro d hd rfl
    rw [hc] at hd
    cases hd
  cases mode with
  | code =>
    have hquote : Quote.ofChar? c = none := by
      simp [Quote.ofChar?, hplain '"' rfl, hplain '\'' rfl, hplain '\x60' rfl]
    refine ⟨⟨c, .code, .code⟩, rfl, nofun, (ite_self _).symm, ?_⟩
    rw [lex_code_cons (fun _ h => absurd h (hplain _ rfl)) (fun _ h => absurd h (hplain _ rfl)),
      hquote, Mode.past, ite_self]
  | line =>
    by_cases hfeed : c = '\n'
    · exact ⟨⟨c, .code, .code⟩, rfl, nofun, by simp [Mode.past, hfeed], by
        simp [Mode.past, hfeed]⟩
    · exact ⟨⟨c, .comment, .line⟩, rfl, nofun, by simp [Mode.past, hfeed], by
        simp [Mode.past, hfeed]⟩
  | block =>
    refine ⟨⟨c, .comment, .block⟩, rfl, nofun, by simp [Mode.past], ?_⟩
    rw [lex_block_cons fun _ h => absurd h (hplain _ rfl)]
    simp [Mode.past]
  | literal quote =>
    have hquote : c ≠ quote.char := hplain _ (by cases quote <;> rfl)
    rw [lex_literal_cons fun _ _ h => absurd h (hplain _ rfl)]
    by_cases hfeed : c = '\n'
    · exact ⟨⟨c, .code, .code⟩, rfl, nofun, by simp [Mode.past, hfeed], by
        simp [Mode.past, hfeed]⟩
    · exact ⟨⟨c, .literal, .literal quote⟩, rfl, nofun, by simp [Mode.past, hfeed], by
        simp [Mode.past, hfeed, hquote]⟩

/-- The first line ends behind the first line feed. -/
theorem cut_append_feed {glyphs : List Glyph} (h : ∀ glyph ∈ glyphs, glyph.char ≠ '\n')
    {feed : Glyph} (hfeed : feed.char = '\n') (start : Mode) (rest : List Glyph) :
    cut start (glyphs ++ feed :: rest) = ⟨start, glyphs ++ [feed]⟩ :: cut feed.mode rest := by
  induction glyphs generalizing start with
  | nil => rw [List.nil_append, List.nil_append, cut, if_pos hfeed]
  | cons glyph glyphs ih =>
    obtain ⟨hglyph, hglyphs⟩ := List.forall_mem_cons.1 h
    rw [List.cons_append, cut, if_neg hglyph, ih hglyphs]
    rfl

/-- Characters without a line feed are one line. -/
theorem cut_of_no_feed {glyphs : List Glyph} (h : ∀ glyph ∈ glyphs, glyph.char ≠ '\n')
    (hne : glyphs ≠ []) (start : Mode) : cut start glyphs = [⟨start, glyphs⟩] := by
  induction glyphs generalizing start with
  | nil => exact absurd rfl hne
  | cons glyph glyphs ih =>
    obtain ⟨hglyph, hglyphs⟩ := List.forall_mem_cons.1 h
    rw [cut, if_neg hglyph]
    by_cases hnil : glyphs = []
    · rw [hnil]
      rfl
    · rw [ih hglyphs hnil]

theorem char_ne_of_mem_lex {mode : Mode} {text : List Char} {c : Char} (h : c ∉ text) :
    ∀ glyph ∈ lex mode text, glyph.char ≠ c := by
  rintro glyph hglyph rfl
  rw [← map_char_lex mode text] at h
  exact h (List.mem_map_of_mem hglyph)

/-- The first lexed line of a text is its first line, lexed by itself, with its ending.  The rest of
the text is lexed by itself, too. -/
theorem exists_cut_firstLine {text line ending rest : List Char}
    (h : Text.FirstLine text line ending rest) (start : Mode) :
    ∃ tail, tail.map Glyph.char = ending ∧ opens tail = false ∧ shows tail = false ∧
      cut start (lex start text) = ⟨start, lex start line ++ tail⟩ ::
        cut ((behind start (lex start line)).past '\n')
          (lex ((behind start (lex start line)).past '\n') rest) := by
  have hline : ∀ glyph ∈ lex start line, glyph.char ≠ '\n' := char_ne_of_mem_lex h.no_feed
  cases h with
  | feed =>
    obtain ⟨feed, hchar, hpart, hmode, hlex⟩ :=
      lex_separator (behind start (lex start line)) (rfl : isSeparator '\n' = true) rest
    refine ⟨[feed], by simp [hchar], by simp [hpart], by simp [hchar, Text.isAsciiBlank], ?_⟩
    rw [lex_append start line (by simp [isSeparator]), hlex, cut_append_feed hline hchar, hmode]
  | returnFeed =>
    obtain ⟨feed, hchar, hpart, hmode, hlex⟩ :=
      lex_separator (behind start (lex start line)) (rfl : isSeparator '\n' = true) rest
    obtain ⟨carriage, hchar', hpart', _, hlex'⟩ :=
      lex_separator (behind start (lex start line)) (rfl : isSeparator '\r' = true) ('\n' :: rest)
    have hpast : (behind start (lex start line)).past '\r' = behind start (lex start line) :=
      if_neg (by simp)
    refine ⟨[carriage, feed], by simp [hchar, hchar'], by simp [hpart, hpart'],
      by simp [hchar, hchar', Text.isAsciiBlank], ?_⟩
    have hglyphs : ∀ glyph ∈ lex start line ++ [carriage], glyph.char ≠ '\n' := by
      intro glyph hglyph
      rcases List.mem_append.1 hglyph with hmem | hmem
      · exact hline glyph hmem
      · rw [List.mem_singleton.1 hmem, hchar']
        decide
    rw [lex_append start line (by simp [isSeparator]), hlex', hpast, hlex, List.append_cons,
      cut_append_feed hglyphs hchar, hmode, List.append_assoc]
    rfl
  | last _ hne =>
    have hlex : lex start text ≠ [] := by
      intro hnil
      exact hne (by rw [← map_char_lex start text, hnil]; rfl)
    refine ⟨[], rfl, rfl, rfl, ?_⟩
    rw [cut_of_no_feed hline hlex, List.append_nil]
    simp [cut]

end Lexer

namespace LexedLine

open Lexer

/-- A line of a document is the lexed line: it has its characters, up to the ending, and it is a
comment line if that holds comment only. -/
structure Agrees (line : Line) (lexed : LexedLine) : Prop where
  chars_eq : ∃ ending ∈ [[], ['\n'], ['\r', '\n']],
    lexed.glyphs.map Glyph.char = line.chars ++ ending
  isComment_iff : line.isComment = true ↔ lexed.CommentOnly

/-- A line holds comment only if it touches a comment and shows nothing else. -/
theorem commentOnly_iff {start : Mode} {glyphs : List Glyph} :
    CommentOnly ⟨start, glyphs⟩ ↔
      ((decide (start = .block) || opens glyphs) && !shows glyphs) = true := by
  have hblank : shows glyphs = false ↔ ∀ glyph ∈ glyphs, glyph.char ≠ '\n' →
      glyph.part = .code ∨ glyph.part = .literal → glyph.char ∈ [' ', '\t', '\x0C', '\r'] := by
    simp only [shows, Text.isAsciiBlank, List.any_eq_false]
    grind
  constructor
  · rintro ⟨htouches, h⟩
    simpa [hblank.2 h, opens] using htouches
  · intro h
    obtain ⟨htouches, hshows⟩ := Bool.and_eq_true_iff.1 h
    exact ⟨by simpa [opens] using htouches, hblank.1 (by simpa using hshows)⟩

end LexedLine

namespace Document

open Lexer

/-- The verdict on a line is what the lexer notes about it, if it starts the line in code or in a
block comment. -/
theorem classify_eq {start : Mode} (hstart : start = .code ∨ start = .block) {line : List Char}
    (hfeed : '\n' ∉ line) :
    classify (decide (start = .block)) line =
      { isComment := (decide (start = .block) || opens (lex start line)) && !shows (lex start line)
        inBlock := decide (behind start (lex start line) = .block) } := by
  rw [classify_eq_classifyFrom]
  rcases hstart with rfl | rfl
  · exact classifyFrom_eq .code nofun hfeed false false nofun
  · exact classifyFrom_eq .block nofun hfeed true false nofun

/-- Lines that are marked one by one, with the flag for an open block comment carried along, are the
lexed lines of the text from there on. -/
theorem markLines_refines_lexer (index : Nat) {start : Mode}
    (hstart : start = .code ∨ start = .block) (text : List Char) :
    List.Forall₂ LexedLine.Agrees
      (markLines index (decide (start = .block)) (Text.splitLines text))
      (cut start (lex start text)) := by
  induction text using Text.byLines generalizing index start with
  | nil => simp [Text.splitLines, markLines, lex, cut]
  | line text line ending rest hfirst ih =>
    obtain ⟨tail, hending, hopens, hshows, hcut⟩ := exists_cut_firstLine hfirst start
    rw [hcut, hfirst.splitLines_eq, markLines, classify_eq hstart hfirst.no_feed]
    refine .cons ⟨⟨ending, hfirst.ending_mem, ?_⟩, ?_⟩ ?_
    · simp [map_char_lex, hending, Line.chars]
    · simp [LexedLine.commentOnly_iff, hopens, hshows]
    · simpa only [Mode.past_feed_eq_block_iff] using ih (index + 1) (Mode.past_feed _)

/-- The lines of a document are the lexed lines of its text, one by one, and the comment lines among
them are those that touch a comment and are blank outside of comments. -/
theorem ofText_refines_lexer (text : String) :
    List.Forall₂ LexedLine.Agrees (ofText text).lines (Lexer.lines text.toList) :=
  markLines_refines_lexer 0 (Or.inl rfl) text.toList

end Document

end Wayfinder
