import Wayfinder.Lookup.Gopls
import Wayfinder.Proofs.Pattern
import Wayfinder.Proofs.Text
import Mathlib.Data.List.Basic

/-!
# Written spans

What a text looks like that the tool writes for a span, and that it can be read in one way only.

* `SpanParts` takes a written span apart.  The readings of the span pattern are the ways to do
  so (`mem_readings_spanPattern`).
* `SpanParts.unique`: there is only one way, whatever colons, digits and dashes the path has.
  The last colons decide it, because numerals have no colons and no dashes.
* `parseSpan?_eq` is therefore what any way to take the text apart gives.
* `readCount?_toDigits`: a count in decimal is read back.
* `parseSpan?_inverts_writing`: so is a span in decimal, in each of its three forms.
-/

namespace Wayfinder

/-! ## Counts -/

namespace Text

theorem digitsFrom_eq {digits : List Char} (h : ∀ c ∈ digits, c.isDigit = true) (value : Nat) :
    digitsFrom value digits = some (Nat.ofDigitChars 10 digits value) := by
  induction digits generalizing value with
  | nil => rw [digitsFrom, Nat.ofDigitChars_nil]
  | cons c rest ih =>
    obtain ⟨hc, hrest⟩ := List.forall_mem_cons.1 h
    have hvalue : digitValue? c = some (c.toNat - 48) := by
      simpa [digitValue?, Char.isDigit, Char.le_def] using hc
    rw [digitsFrom, hvalue, Nat.ofDigitChars_cons, Nat.mul_comm 10 value]
    exact ih hrest _

/-- A count in decimal is read back, if it fits. -/
theorem readCount?_toDigits {count : Nat} (h : count < Nat.pow 2 64) :
    readCount? (Nat.toDigits 10 count) = some count := by
  have hdigits : ∀ c ∈ Nat.toDigits 10 count, c.isDigit = true :=
    fun c hc => Nat.isDigit_of_mem_toDigits (by decide) (by decide) hc
  have hempty : (Nat.toDigits 10 count).isEmpty = false :=
    List.isEmpty_eq_false_iff.2 Nat.toDigits_ne_nil
  have hvalue : digitsFrom 0 (Nat.toDigits 10 count) = some count := by
    rw [digitsFrom_eq hdigits, Nat.ofDigitChars_ten_toDigits]
  unfold readCount?
  split
  · rename_i rest heq
    -- A sign is no digit.
    have hsign := hdigits '+' (heq ▸ List.mem_cons_self)
    exact absurd hsign (by decide)
  · simp only [hempty, hvalue, h, if_true, Bool.false_eq_true, if_false]

end Text

namespace Lookup.Gopls

open Pattern

/-! ## Numerals -/

/-- A row of digits of any script. -/
structure IsNumeral (text : List Char) : Prop where
  ne_nil : text ≠ []
  digits : ∀ c ∈ text, Text.isDigit c = true

namespace IsNumeral

variable {text : List Char}

theorem colon_not_mem (h : IsNumeral text) : ':' ∉ text :=
  fun hmem => absurd (h.digits ':' hmem) (by decide)

theorem dash_not_mem (h : IsNumeral text) : '-' ∉ text :=
  fun hmem => absurd (h.digits '-' hmem) (by decide)

theorem not_isBlank (h : IsNumeral text) {c : Char} (hc : c ∈ text) : Text.isBlank c = false := by
  apply Text.not_isBlank_of_isWord
  simp [Text.isWord, h.digits c hc]

/-- A numeral is no text with a dash in it. -/
theorem ne_append_dash (h : IsNumeral text) (front behind : List Char) :
    text ≠ front ++ '-' :: behind :=
  fun heq => h.dash_not_mem (heq ▸ List.mem_append_right _ List.mem_cons_self)

/-- A count in decimal is a numeral. -/
theorem of_toDigits (count : Nat) : IsNumeral (Nat.toDigits 10 count) where
  ne_nil := Nat.toDigits_ne_nil
  digits := by
    intro c hc
    have hdigit := Nat.isDigit_of_mem_toDigits (by decide) (by decide) hc
    have hrange : 48 ≤ c.val ∧ c.val ≤ 57 := by
      simpa [Char.isDigit] using hdigit
    change 48 ≤ c.toNat ∧ c.toNat ≤ 57 at hrange
    rw [Text.isDigit, Text.digitRanges, Text.inRanges, if_neg (by omega), if_pos hrange.2]

end IsNumeral

theorem mem_readings_digits {group : Nat} {reading after : Reading} :
    after ∈ (capture group digits).readings reading ↔
      ∃ numeral rest, reading.rest = numeral ++ rest ∧ IsNumeral numeral ∧
        after = ⟨reading.column + numeral.length, rest,
          reading.groups ++ [(group, ⟨reading.column, reading.column + numeral.length⟩)]⟩ := by
  simp only [digits, mem_readings_capture, mem_readings_run]
  constructor
  · rintro ⟨_, ⟨numeral, rest, hrest, hlength, hdigits, rfl⟩, rfl⟩
    exact ⟨numeral, rest, hrest, ⟨List.ne_nil_of_length_pos hlength, hdigits⟩, rfl⟩
  · rintro ⟨numeral, rest, hrest, hnumeral, rfl⟩
    exact ⟨_, ⟨numeral, rest, hrest, List.length_pos_of_ne_nil hnumeral.ne_nil,
      hnumeral.digits, rfl⟩, rfl⟩

/-! ## The parts of a span -/

/-- How a written span goes on behind its start: not at all, with a column of the same line, or
with a line and a column. -/
inductive SpanEnd where
  | absent
  | inLine (column : List Char)
  | place (line column : List Char)

namespace SpanEnd

/-- The end as it is written. -/
def chars : SpanEnd → List Char
  | .absent => []
  | .inLine column => '-' :: column
  | .place line column => '-' :: (line ++ ':' :: column)

def line? : SpanEnd → Option (List Char)
  | .place line _ => some line
  | _ => none

def column? : SpanEnd → Option (List Char)
  | .absent => none
  | .inLine column => some column
  | .place _ column => some column

/-- The groups that are captured in the end, if it starts at an offset. -/
def groups (offset : Nat) : SpanEnd → List (Nat × Span)
  | .absent => []
  | .inLine column => [(5, ⟨offset + 1, offset + 1 + column.length⟩)]
  | .place line column =>
      [(4, ⟨offset + 1, offset + 1 + line.length⟩),
        (5, ⟨offset + 1 + line.length + 1, offset + 1 + line.length + 1 + column.length⟩)]

/-- The numbers in the end are numerals. -/
def Numeric (stop : SpanEnd) : Prop :=
  (∀ line ∈ stop.line?, IsNumeral line) ∧ ∀ column ∈ stop.column?, IsNumeral column

end SpanEnd

/-- A written span is a path, the numerals of a line and a column, and possibly an end.  The path
is a part of one line. -/
structure SpanParts (text path line column : List Char) (stop : SpanEnd) : Prop where
  text_eq : text = path ++ ':' :: (line ++ ':' :: (column ++ stop.chars))
  path_ne_nil : path ≠ []
  path_line : '\n' ∉ path
  line_numeral : IsNumeral line
  column_numeral : IsNumeral column
  stop_numeric : stop.Numeric

/-! ## There is one way to take a span apart -/

/-- A text is cut in one way at its last colon. -/
theorem append_colon_inj {front back front' back' : List Char} (h : ':' ∉ back) (h' : ':' ∉ back')
    (heq : front ++ ':' :: back = front' ++ ':' :: back') : front = front' ∧ back = back' := by
  rcases List.append_eq_append_iff.1 heq with ⟨middle, hfront, hback⟩ | ⟨middle, hfront, hback⟩
  all_goals
    rcases List.cons_eq_append_iff.1 hback with ⟨rfl, htail⟩ | ⟨tail, rfl, htail⟩
  · exact ⟨by simpa using hfront.symm, (List.cons.inj htail).2.symm⟩
  · exact absurd (htail ▸ List.mem_append_right _ List.mem_cons_self) h
  · exact ⟨by simpa using hfront, (List.cons.inj htail).2⟩
  · exact absurd (htail ▸ List.mem_append_right _ List.mem_cons_self) h'

/-- A text is cut in one way at its last two colons. -/
theorem append_colons_inj {front middle back front' middle' back' : List Char}
    (hmiddle : ':' ∉ middle) (hmiddle' : ':' ∉ middle') (hback : ':' ∉ back) (hback' : ':' ∉ back')
    (heq : front ++ ':' :: (middle ++ ':' :: back) = front' ++ ':' :: (middle' ++ ':' :: back')) :
    front = front' ∧ middle = middle' ∧ back = back' := by
  have hlast : (front ++ ':' :: middle) ++ ':' :: back =
      (front' ++ ':' :: middle') ++ ':' :: back' := by
    simpa using heq
  obtain ⟨hfront, rfl⟩ := append_colon_inj hback hback' hlast
  obtain ⟨rfl, rfl⟩ := append_colon_inj hmiddle hmiddle' hfront
  exact ⟨rfl, rfl, rfl⟩

/-- Two numerals with a dash between them are cut in one way. -/
theorem IsNumeral.append_dash_inj {front back front' back' : List Char} (hfront : IsNumeral front)
    (hback : IsNumeral back) (heq : front ++ '-' :: back = front' ++ '-' :: back') :
    front = front' ∧ back = back' := by
  obtain ⟨rfl, -, rfl⟩ :=
    (List.append_cons_inj_of_notMem hfront.dash_not_mem hback.dash_not_mem).1 heq
  exact ⟨rfl, rfl⟩

/-- The parts of a written span in front of, between and behind its last two colons. -/
def SpanEnd.segments (path line column : List Char) :
    SpanEnd → List Char × List Char × List Char
  | .absent => (path, line, column)
  | .inLine last => (path, line, column ++ '-' :: last)
  | .place lastLine last => (path ++ ':' :: line, column ++ '-' :: lastLine, last)

namespace SpanParts

variable {text path line column path' line' column' : List Char} {stop stop' : SpanEnd}

theorem length_eq (h : SpanParts text path line column stop) :
    text.length = path.length + 1 + line.length + 1 + column.length + stop.chars.length := by
  simp only [h.text_eq, List.length_append, List.length_cons]
  omega

theorem exists_segments (h : SpanParts text path line column stop) :
    ∃ front middle back, stop.segments path line column = (front, middle, back) ∧
      text = front ++ ':' :: (middle ++ ':' :: back) ∧ ':' ∉ middle ∧ ':' ∉ back := by
  have hline := h.line_numeral.colon_not_mem
  have hcolumn := h.column_numeral.colon_not_mem
  have htext := h.text_eq
  cases stop with
  | absent =>
    refine ⟨path, line, column, rfl, ?_, hline, hcolumn⟩
    simpa [SpanEnd.chars] using htext
  | inLine last =>
    have hlast := (h.stop_numeric.2 last rfl).colon_not_mem
    refine ⟨path, line, column ++ '-' :: last, rfl, htext, hline, ?_⟩
    simp [hcolumn, hlast]
  | place lastLine last =>
    have hlastLine := (h.stop_numeric.1 lastLine rfl).colon_not_mem
    have hlast := (h.stop_numeric.2 last rfl).colon_not_mem
    refine ⟨path ++ ':' :: line, column ++ '-' :: lastLine, last, rfl, ?_, ?_, hlast⟩
    · simpa [SpanEnd.chars] using htext
    · simp [hcolumn, hlastLine]

theorem segments_eq (h : SpanParts text path line column stop)
    (h' : SpanParts text path' line' column' stop') :
    stop.segments path line column = stop'.segments path' line' column' := by
  obtain ⟨front, middle, back, hparts, htext, hmiddle, hback⟩ := h.exists_segments
  obtain ⟨front', middle', back', hparts', htext', hmiddle', hback'⟩ := h'.exists_segments
  obtain ⟨rfl, rfl, rfl⟩ :=
    append_colons_inj hmiddle hmiddle' hback hback' (htext.symm.trans htext')
  rw [hparts, hparts']

/-- There is only one way to take a written span apart. -/
theorem unique (h : SpanParts text path line column stop)
    (h' : SpanParts text path' line' column' stop') :
    path = path' ∧ line = line' ∧ column = column' ∧ stop = stop' := by
  have heq := h.segments_eq h'
  -- A dash tells the ends apart: behind the last colon it is in a column of the same line, and
  -- between the last two in an end with a line of its own.
  cases stop with
  | absent =>
    cases stop' with
    | absent =>
      cases heq
      exact ⟨rfl, rfl, rfl, rfl⟩
    | inLine last' =>
      exact absurd (congrArg (·.2.2) heq) (h.column_numeral.ne_append_dash _ _)
    | place lastLine' last' =>
      exact absurd (congrArg (·.2.1) heq) (h.line_numeral.ne_append_dash _ _)
  | inLine last =>
    have hlast := h.stop_numeric.2 last rfl
    cases stop' with
    | absent =>
      exact absurd (congrArg (·.2.2) heq.symm) (h'.column_numeral.ne_append_dash _ _)
    | inLine last' =>
      obtain ⟨rfl, rfl⟩ := h.column_numeral.append_dash_inj hlast (congrArg (·.2.2) heq)
      cases heq
      exact ⟨rfl, rfl, rfl, rfl⟩
    | place lastLine' last' =>
      exact absurd (congrArg (·.2.1) heq) (h.line_numeral.ne_append_dash _ _)
  | place lastLine last =>
    have hlastLine := h.stop_numeric.1 lastLine rfl
    cases stop' with
    | absent =>
      exact absurd (congrArg (·.2.1) heq.symm) (h'.line_numeral.ne_append_dash _ _)
    | inLine last' =>
      exact absurd (congrArg (·.2.1) heq.symm) (h'.line_numeral.ne_append_dash _ _)
    | place lastLine' last' =>
      obtain ⟨rfl, rfl⟩ := h.column_numeral.append_dash_inj hlastLine (congrArg (·.2.1) heq)
      obtain ⟨rfl, rfl⟩ := append_colon_inj h.line_numeral.colon_not_mem
        h'.line_numeral.colon_not_mem (congrArg (·.1) heq)
      cases heq
      exact ⟨rfl, rfl, rfl, rfl⟩

end SpanParts

/-! ## Reading a span -/

/-- The part of the span pattern that reads the end. -/
def endPattern : Pattern :=
  .maybe
    (.sequence
      [.literal ['-'], .maybe (.seq (.capture 4 digits) (.literal [':'])) .longest,
        .capture 5 digits])
    .longest

theorem mem_readings_endPattern {reading after : Reading} :
    after ∈ endPattern.readings reading ↔
      ∃ stop rest, reading.rest = SpanEnd.chars stop ++ rest ∧ stop.Numeric ∧
        after = ⟨reading.column + stop.chars.length, rest,
          reading.groups ++ stop.groups reading.column⟩ := by
  simp only [endPattern, Pattern.sequence, mem_readings_maybe, mem_readings_seq,
    mem_readings_literal, mem_readings_digits]
  constructor
  · rintro (rfl | ⟨_, ⟨behindDash, hdash, rfl⟩, _, rfl | ⟨_, ⟨lastLine, behindLine, hline,
      hlineNumeral, rfl⟩, behindColon, hcolon, rfl⟩, last, rest, hlast, hlastNumeral, rfl⟩)
    · exact ⟨.absent, after.rest, rfl, ⟨nofun, nofun⟩, by simp [SpanEnd.chars, SpanEnd.groups]⟩
    · simp only at hlast
      refine ⟨.inLine last, rest, ?_, ⟨nofun, ?_⟩, ?_⟩
      · rw [hdash, hlast]
        rfl
      · simpa [SpanEnd.column?] using hlastNumeral
      · simp [SpanEnd.chars, SpanEnd.groups, Nat.add_comm, Nat.add_left_comm]
    · simp only at hline hcolon hlast
      refine ⟨.place lastLine last, rest, ?_, ⟨?_, ?_⟩, ?_⟩
      · rw [hdash, hline, hcolon, hlast]
        simp [SpanEnd.chars]
      · simpa [SpanEnd.line?] using hlineNumeral
      · simpa [SpanEnd.column?] using hlastNumeral
      · simp [SpanEnd.chars, SpanEnd.groups, Nat.add_comm, Nat.add_left_comm]
  · rintro ⟨stop, rest, hrest, hnumeric, rfl⟩
    cases stop with
    | absent =>
      left
      have hrest : reading.rest = rest := hrest
      simp [SpanEnd.chars, SpanEnd.groups, ← hrest]
    | inLine last =>
      right
      refine ⟨_, ⟨last ++ rest, hrest, rfl⟩, _, .inl rfl, last, rest, rfl,
        hnumeric.2 last rfl, ?_⟩
      simp [SpanEnd.chars, SpanEnd.groups, Nat.add_comm, Nat.add_left_comm]
    | place lastLine last =>
      right
      refine ⟨_, ⟨lastLine ++ ':' :: (last ++ rest), by simpa [SpanEnd.chars] using hrest, rfl⟩, _,
        .inr ⟨_, ⟨lastLine, ':' :: (last ++ rest), rfl, hnumeric.1 lastLine rfl, rfl⟩,
          last ++ rest, rfl, rfl⟩, last, rest, rfl, hnumeric.2 last rfl, ?_⟩
      simp [SpanEnd.chars, SpanEnd.groups, Nat.add_comm, Nat.add_left_comm]

/-- The groups that are captured in a written span. -/
def spanGroups (path line column : List Char) (stop : SpanEnd) : List (Nat × Span) :=
  let lineStart := path.length + 1
  let columnStart := lineStart + line.length + 1
  [(1, ⟨0, path.length⟩), (2, ⟨lineStart, lineStart + line.length⟩),
    (3, ⟨columnStart, columnStart + column.length⟩)] ++
    stop.groups (columnStart + column.length)

/-- The readings of a span are the ways to take it apart. -/
theorem mem_readings_spanPattern {text : List Char} {after : Reading} :
    after ∈ spanPattern.readings (Reading.start text) ↔
      ∃ path line column stop, SpanParts text path line column stop ∧
        after = ⟨text.length, [], spanGroups path line column stop⟩ := by
  have hpattern : spanPattern = .sequence
      [.capture 1 (.run (· != '\n') 1 .shortest), .literal [':'], .capture 2 digits,
        .literal [':'], .capture 3 digits, endPattern, .atEnd] := rfl
  simp only [hpattern, Pattern.sequence, mem_readings_seq, mem_readings_digits,
    mem_readings_endPattern, mem_readings_literal, mem_readings_atEnd,
    @mem_readings_capture _ _ 1, mem_readings_run, Reading.start]
  constructor
  · rintro ⟨_, ⟨_, ⟨path, behindPath, htext, hlength, hpath, rfl⟩, rfl⟩, _, ⟨behindColon, hcolon,
      rfl⟩, _, ⟨line, behindLine, hline, hlineNumeral, rfl⟩, _, ⟨behindSecond, hsecond, rfl⟩, _,
      ⟨column, behindColumn, hcolumn, hcolumnNumeral, rfl⟩, _, ⟨stop, rest, hstop, hnumeric,
      rfl⟩, hrest, rfl⟩
    simp only at hcolon hline hsecond hcolumn hstop hrest
    subst hrest
    rw [List.append_nil] at hstop
    have hsplit : text = path ++ ':' :: (line ++ ':' :: (column ++ stop.chars)) := by
      rw [htext, hcolon, hline, hsecond, hcolumn, hstop]
      rfl
    have hfeed : '\n' ∉ path := fun hmem => by simpa using hpath '\n' hmem
    have h : SpanParts text path line column stop :=
      ⟨hsplit, List.ne_nil_of_length_pos hlength, hfeed, hlineNumeral, hcolumnNumeral, hnumeric⟩
    exact ⟨path, line, column, stop, h, by simp [h.length_eq, spanGroups]⟩
  · rintro ⟨path, line, column, stop, h, rfl⟩
    refine ⟨_, ⟨_, ⟨path, _, h.text_eq, List.length_pos_of_ne_nil h.path_ne_nil, ?_, rfl⟩, rfl⟩, _,
      ⟨_, rfl, rfl⟩, _, ⟨line, _, rfl, h.line_numeral, rfl⟩, _, ⟨_, rfl, rfl⟩, _,
      ⟨column, _, rfl, h.column_numeral, rfl⟩, _, ⟨stop, [], (List.append_nil _).symm,
      h.stop_numeric, rfl⟩, rfl, ?_⟩
    · intro c hc
      simpa using ne_of_mem_of_not_mem hc h.path_line
    · simp [h.length_eq, spanGroups]

/-- A numeral as a count from zero. -/
def number? (numeral : List Char) : Option Nat :=
  (Text.readCount? numeral).bind fromOne?

theorem number?_toDigits {count : Nat} (h : count + 1 < Nat.pow 2 64) :
    number? (Nat.toDigits 10 (count + 1)) = some count := by
  rw [number?, Text.readCount?_toDigits h]
  rfl

/-- The text that a group has captured. -/
def captured? (reading : Reading) (text : List Char) (group : Nat) : Option (List Char) :=
  (reading.group? group).map (·.chars text)

namespace SpanParts

variable {text path line column : List Char} {stop : SpanEnd}

/-- The preferred reading of a span is the only one. -/
theorem read?_eq (h : SpanParts text path line column stop) :
    spanPattern.read? text = some ⟨text.length, [], spanGroups path line column stop⟩ := by
  have hmem := mem_readings_spanPattern.2 ⟨path, line, column, stop, h, rfl⟩
  obtain ⟨first, hfirst⟩ :=
    Option.isSome_iff_exists.1 (List.isSome_head?.2 (List.ne_nil_of_mem hmem))
  obtain ⟨path', line', column', stop', h', rfl⟩ :=
    mem_readings_spanPattern.1 (List.mem_of_head? hfirst)
  obtain ⟨rfl, rfl, rfl, rfl⟩ := h.unique h'
  rw [read?_eq_head?, hfirst]

/-- The groups of a span capture its parts. -/
theorem captured?_eq (h : SpanParts text path line column stop) {reading : Reading}
    (hgroups : reading.groups = spanGroups path line column stop) :
    captured? reading text 1 = some path ∧ captured? reading text 2 = some line ∧
      captured? reading text 3 = some column ∧ captured? reading text 4 = stop.line? ∧
      captured? reading text 5 = stop.column? := by
  have hchars : ∀ lead part rest span, text = lead ++ (part ++ rest) →
      span = ⟨lead.length, lead.length + part.length⟩ → Span.chars span text = part := by
    rintro lead part rest span rfl rfl
    exact Span.chars_append lead part rest
  have htext := h.text_eq
  simp only [captured?, Reading.group?, hgroups, spanGroups]
  refine ⟨?_, ?_, ?_, ?_, ?_⟩
  · apply congrArg some
    apply hchars [] path _ _ htext
    simp
  · apply congrArg some
    apply hchars (path ++ [':']) line (':' :: (column ++ stop.chars))
    · simpa using htext
    · simp
  · apply congrArg some
    apply hchars (path ++ ':' :: (line ++ [':'])) column stop.chars
    · simpa using htext
    · simp [Nat.add_left_comm, Nat.add_comm]
  · cases stop with
    | absent => rfl
    | inLine last => rfl
    | place lastLine last =>
      apply congrArg some
      apply hchars (path ++ ':' :: (line ++ ':' :: (column ++ ['-']))) lastLine (':' :: last)
      · simpa [SpanEnd.chars] using htext
      · simp [Nat.add_left_comm, Nat.add_comm]
  · cases stop with
    | absent => rfl
    | inLine last =>
      apply congrArg some
      apply hchars (path ++ ':' :: (line ++ ':' :: (column ++ ['-']))) last []
      · simpa [SpanEnd.chars] using htext
      · simp [Nat.add_left_comm, Nat.add_comm]
    | place lastLine last =>
      apply congrArg some
      apply hchars (path ++ ':' :: (line ++ ':' :: (column ++ '-' :: (lastLine ++ [':'])))) last []
      · simpa [SpanEnd.chars] using htext
      · simp [Nat.add_left_comm, Nat.add_comm]

/-- A span is read as any way to take it apart says. -/
theorem parseSpan?_eq (h : SpanParts text path line column stop) :
    parseSpan? text = (number? line).bind fun startLine =>
      (number? column).map fun startColumn =>
        { document := String.ofList path
          line := startLine
          byteColumn := startColumn
          endLine := (stop.line?.bind number?).getD startLine
          endByteColumn := (stop.column?.bind number?).getD startColumn } := by
  generalize hreading : Reading.mk text.length [] (spanGroups path line column stop) = reading
  have hgroups : reading.groups = spanGroups path line column stop := by rw [← hreading]
  obtain ⟨hpath, hline, hcolumn, hlastLine, hlast⟩ := h.captured?_eq hgroups
  have hnumber : ∀ group, ((reading.group? group).bind fun span =>
      (Text.readCount? (span.chars text)).bind fun count => fromOne? count) =
        (captured? reading text group).bind number? := by
    intro group
    rw [captured?, Option.bind_map]
    rfl
  obtain ⟨span, hspan, hchars⟩ := Option.map_eq_some_iff.1 hpath
  unfold parseSpan?
  simp only [Option.bind_eq_bind, Option.pure_def, h.read?_eq, hreading, Option.bind_some, hnumber,
    hline, hcolumn, hlastLine, hlast, hspan, Span.text, hchars, Option.map_eq_bind]
  rfl

/-- A span that starts on line or column zero is not read. -/
theorem parseSpan?_eq_none (h : SpanParts text path line column stop)
    (hzero : Text.readCount? line = some 0 ∨ Text.readCount? column = some 0) :
    parseSpan? text = none := by
  have hnumber : ∀ numeral, Text.readCount? numeral = some 0 → number? numeral = none := by
    intro numeral hnumeral
    rw [number?, hnumeral]
    rfl
  rw [h.parseSpan?_eq]
  rcases hzero with hzero | hzero
  · rw [hnumber line hzero]
    rfl
  · rw [hnumber column hzero]
    cases number? line <;> rfl

end SpanParts

/-! ## Spans written in decimal -/

namespace SpanEnd

theorem numeric_absent : absent.Numeric :=
  ⟨by rintro _ ⟨⟩, by rintro _ ⟨⟩⟩

theorem numeric_inLine {column : List Char} (hcolumn : IsNumeral column) :
    (inLine column).Numeric :=
  ⟨by rintro _ ⟨⟩, by rintro _ ⟨⟩; exact hcolumn⟩

theorem numeric_place {line column : List Char} (hline : IsNumeral line)
    (hcolumn : IsNumeral column) : (place line column).Numeric :=
  ⟨by rintro _ ⟨⟩; exact hline, by rintro _ ⟨⟩; exact hcolumn⟩

end SpanEnd

/-- The start of a span in decimal, with the end that is written behind it. -/
theorem spanParts_decimal {path : String} (hpath : path ≠ "") (hfeed : '\n' ∉ path.toList)
    (line column : Nat) {stop : SpanEnd} (hstop : stop.Numeric) :
    SpanParts (path ++ ":" ++ toString line ++ ":" ++ toString column ++
        String.ofList stop.chars).toList
      path.toList (Nat.toDigits 10 line) (Nat.toDigits 10 column) stop where
  text_eq := by simp [Nat.toString_eq_repr]
  path_ne_nil := by simpa using hpath
  path_line := hfeed
  line_numeral := .of_toDigits line
  column_numeral := .of_toDigits column
  stop_numeric := hstop

/-- A span in decimal is read with its own start, and with the end that the rest denotes. -/
theorem parseSpan?_decimal {path : String} (hpath : path ≠ "") (hfeed : '\n' ∉ path.toList)
    {line column : Nat} (hline : line < Nat.pow 2 64 - 1) (hcolumn : column < Nat.pow 2 64 - 1)
    (stop : SpanEnd) (hstop : stop.Numeric) :
    parseSpan? (path ++ ":" ++ toString (line + 1) ++ ":" ++ toString (column + 1) ++
        String.ofList stop.chars).toList =
      some ⟨path, line, column, (stop.line?.bind number?).getD line,
        (stop.column?.bind number?).getD column⟩ := by
  have hparts := spanParts_decimal hpath hfeed (line + 1) (column + 1) hstop
  have hline : number? (Nat.toDigits 10 (line + 1)) = some line := number?_toDigits (by omega)
  have hcolumn : number? (Nat.toDigits 10 (column + 1)) = some column :=
    number?_toDigits (by omega)
  rw [hparts.parseSpan?_eq, hline, hcolumn]
  simp

/-- Every span that the tool can write is read back, whatever its path looks like, and a span that
starts on line or column zero is not read. -/
theorem parseSpan?_inverts_writing {path : String} (hpath : path ≠ "")
    (hfeed : '\n' ∉ path.toList) {line column endLine endColumn : Nat}
    (hline : line < Nat.pow 2 64 - 1) (hcolumn : column < Nat.pow 2 64 - 1)
    (hendLine : endLine < Nat.pow 2 64 - 1) (hendColumn : endColumn < Nat.pow 2 64 - 1) :
    parseSpan? (path ++ ":" ++ toString (line + 1) ++ ":" ++ toString (column + 1)).toList =
        some ⟨path, line, column, line, column⟩ ∧
      parseSpan? (path ++ ":" ++ toString (line + 1) ++ ":" ++ toString (column + 1) ++
          "-" ++ toString (endColumn + 1)).toList =
        some ⟨path, line, column, line, endColumn⟩ ∧
      parseSpan? (path ++ ":" ++ toString (line + 1) ++ ":" ++ toString (column + 1) ++
          "-" ++ toString (endLine + 1) ++ ":" ++ toString (endColumn + 1)).toList =
        some ⟨path, line, column, endLine, endColumn⟩ ∧
      ∀ text startLine startColumn stop,
        SpanParts text path.toList startLine startColumn stop →
        Text.readCount? startLine = some 0 ∨ Text.readCount? startColumn = some 0 →
        parseSpan? text = none := by
  have hlastLine : number? (Nat.toDigits 10 (endLine + 1)) = some endLine :=
    number?_toDigits (by omega)
  have hlast : number? (Nat.toDigits 10 (endColumn + 1)) = some endColumn :=
    number?_toDigits (by omega)
  have hnumeral : ∀ count, IsNumeral (Nat.toDigits 10 count) := .of_toDigits
  refine ⟨?_, ?_, ?_, ?_⟩
  · have hread := parseSpan?_decimal hpath hfeed hline hcolumn .absent SpanEnd.numeric_absent
    simpa [SpanEnd.chars, SpanEnd.line?, SpanEnd.column?] using hread
  · have hread := parseSpan?_decimal hpath hfeed hline hcolumn _
      (SpanEnd.numeric_inLine (hnumeral (endColumn + 1)))
    simpa [SpanEnd.chars, SpanEnd.line?, SpanEnd.column?, hlast, Nat.toString_eq_repr] using hread
  · have hread := parseSpan?_decimal hpath hfeed hline hcolumn _
      (SpanEnd.numeric_place (hnumeral (endLine + 1)) (hnumeral (endColumn + 1)))
    simpa [SpanEnd.chars, SpanEnd.line?, SpanEnd.column?, hlastLine, hlast,
      Nat.toString_eq_repr] using hread
  · intro text startLine startColumn stop hparts hzero
    exact hparts.parseSpan?_eq_none hzero

/-- A path that looks like a span itself, with the largest number at its end. -/
theorem parseSpan?_inverts_writing_spanLike :
    parseSpan? "a:1:2-3:7:1".toList = some ⟨"a:1:2-3", 6, 0, 6, 0⟩ ∧
      parseSpan? "a:1:2-3:7:1-18446744073709551615".toList =
        some ⟨"a:1:2-3", 6, 0, 6, 18446744073709551614⟩ ∧
      parseSpan? "a:1:2-3:7:1-9:18446744073709551615".toList =
        some ⟨"a:1:2-3", 6, 0, 8, 18446744073709551614⟩ ∧
      parseSpan? "a:1:2-3:7:00-4".toList = none := by
  have hread := @parseSpan?_inverts_writing "a:1:2-3" (by decide) (by decide) 6 0 8
    18446744073709551614 (by decide) (by decide) (by decide) (by decide)
  have hzeros : IsNumeral ['0', '0'] := ⟨by decide, List.all_eq_true.1 (by decide +kernel)⟩
  have hparts : SpanParts "a:1:2-3:7:00-4".toList "a:1:2-3".toList ['7'] ['0', '0']
      (.inLine ['4']) :=
    ⟨by decide, by decide, by decide, .of_toDigits 7, hzeros,
      SpanEnd.numeric_inLine (.of_toDigits 4)⟩
  exact ⟨hread.1, hread.2.1, hread.2.2.1, hread.2.2.2 _ _ _ _ hparts (Or.inr (by decide +kernel))⟩

end Lookup.Gopls

end Wayfinder
