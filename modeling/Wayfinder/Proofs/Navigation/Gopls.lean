import Wayfinder.Proofs.Anchors
import Wayfinder.Proofs.FileTree
import Wayfinder.Proofs.Lines
import Wayfinder.Proofs.Span

/-!
# Places of hints as the tool sees them

A hint has its place in characters, and the tool counts bytes.  The place of a hint is sent
out as a byte column, and read back through the line of the document that it denotes.

* `positionIn_byteSize`: the size of what stands in front of a place leads back to the place.
* `lt_of_nameOnLine`: the numbers of a hint are below the size of its text.
* `parseOutput_writtenSpan`: an answer of one written span is read as one location.
-/

namespace Wayfinder

theorem Workspace.openDocument_of_readText {workspace : Workspace} {host : Host}
    {path text : String} (h : host.readText (workspace.resolve path) = .ok text) :
    workspace.openDocument host path = .ok (Document.ofText text) := by
  simp only [openDocument, h]

namespace Lookup.Gopls

/-! ## Byte columns on the line of a hint -/

/-- The size of what stands in front of a place leads back to the place. -/
theorem positionIn_byteSize {document : Document} {index : Nat} {line : Line}
    {front rest : List Char} (hline : document.line? index = some line)
    (hchars : line.chars = front ++ rest) :
    positionIn (some document) index (Text.byteSize front) = ⟨index, front.length⟩ := by
  have hsource : (some document).bind (·.line? index) = some line := hline
  simp only [positionIn, hsource, hchars, Text.charColumn_byteSize]

theorem lt_of_nameOnLine {text : String} {hint : Hint} {line : Line} {front rest : List Char}
    (h : (Document.ofText text).NameOnLine hint line front rest) :
    hint.line < text.utf8ByteSize ∧
      Text.byteSize (front ++ hint.method.toList) < text.utf8ByteSize := by
  have hfits := Text.add_byteSize_le_of_splitLines (Document.splitLines_of_line? h.line?_eq)
  obtain ⟨c, behind, hrest⟩ := List.exists_cons_of_ne_nil h.rest_ne_nil
  have hpos := Char.utf8Size_pos c
  rw [Text.byteSize_toList, h.chars_eq, hrest] at hfits
  simp only [Text.byteSize_append, Text.byteSize_cons] at hfits ⊢
  omega

/-! ## Questions -/

/-- The span that is asked about has the byte column of the hint's name. -/
theorem query_position {host : Host} {workspace : Workspace} {path text : String} {hint : Hint}
    {line : Line} {front rest : List Char}
    (hread : host.readText (workspace.resolve path) = .ok text)
    (h : (Document.ofText text).NameOnLine hint line front rest) :
    query host workspace path hint.position = .ok ((workspace.resolve path).display ++ ":" ++
      toString (hint.line + 1) ++ ":" ++ toString (Text.byteSize front + 1)) := by
  have hcolumn : Text.byteColumn line.chars hint.startColumn = Text.byteSize front := by
    rw [Text.byteColumn_eq, h.startColumn_eq, h.chars_eq, List.take_left]
  have hline : (Document.ofText text).line? hint.position.line = some line := h.line?_eq
  rw [query, Workspace.openDocument_of_readText hread]
  show Except.ok _ = _
  rw [hline]
  show Except.ok (_ ++ toString (Text.byteColumn line.chars hint.startColumn + 1)) = _
  rw [hcolumn]
  rfl

/-! ## Answers -/

/-- A span from a place to a column of the same line, as the tool writes it. -/
def writtenSpan (path : String) (line column last : Nat) : String :=
  path ++ ":" ++ toString (line + 1) ++ ":" ++ toString (column + 1) ++ "-" ++
    toString (last + 1)

theorem toList_writtenSpan (path : String) (line column last : Nat) :
    (writtenSpan path line column last).toList =
      path.toList ++ ':' :: (Nat.toDigits 10 (line + 1) ++ ':' :: (Nat.toDigits 10 (column + 1) ++
        (SpanEnd.inLine (Nat.toDigits 10 (last + 1))).chars)) := by
  simp [writtenSpan, SpanEnd.chars, Nat.toString_eq_repr]

/-- A path that can stand in front of a span: it is part of one line, and the line does not
start with a blank. -/
structure IsSpanPath (path : String) : Prop where
  ne_empty : path ≠ ""
  no_feed : '\n' ∉ path.toList
  head_not_blank : ∀ c ∈ path.toList.head?, Text.isBlank c = false

theorem spanParts_writtenSpan {path : String} (h : IsSpanPath path) (line column last : Nat) :
    SpanParts (writtenSpan path line column last).toList path.toList (Nat.toDigits 10 (line + 1))
      (Nat.toDigits 10 (column + 1)) (.inLine (Nat.toDigits 10 (last + 1))) where
  text_eq := toList_writtenSpan path line column last
  path_ne_nil := by simpa using h.ne_empty
  path_line := h.no_feed
  line_numeral := .of_toDigits _
  column_numeral := .of_toDigits _
  stop_numeric := by
    refine ⟨nofun, ?_⟩
    simpa [SpanEnd.column?] using IsNumeral.of_toDigits (last + 1)

/-- A written span is a line of its own, with nothing to trim. -/
theorem splitLines_writtenSpan {path : String} (h : IsSpanPath path) (line column last : Nat)
    {ending : String} (hending : ending = "" ∨ ending = "\n") :
    Text.splitLines (writtenSpan path line column last ++ ending).toList =
        [(writtenSpan path line column last).toList] ∧
      Text.trim (writtenSpan path line column last).toList =
        (writtenSpan path line column last).toList := by
  have hparts := spanParts_writtenSpan h line column last
  generalize writtenSpan path line column last = written at hparts ⊢
  have hnumeral : IsNumeral (Nat.toDigits 10 (last + 1)) := .of_toDigits _
  obtain ⟨front, hfront⟩ : ∃ front, written.toList = front ++ Nat.toDigits 10 (last + 1) := by
    refine ⟨path.toList ++ ':' :: (Nat.toDigits 10 (line + 1) ++
      ':' :: (Nat.toDigits 10 (column + 1) ++ ['-'])), ?_⟩
    simpa [SpanEnd.chars] using hparts.text_eq
  have hlast : ∀ c ∈ written.toList.getLast?, Text.isBlank c = false := by
    intro c hc
    rw [hfront, List.getLast?_append_of_ne_nil _ hnumeral.ne_nil] at hc
    exact hnumeral.not_isBlank (List.mem_of_getLast? hc)
  have hhead : ∀ c ∈ written.toList.head?, Text.isBlank c = false := by
    rw [hparts.text_eq, List.head?_append_of_ne_nil _ hparts.path_ne_nil]
    exact h.head_not_blank
  have hfeed : '\n' ∉ written.toList := by
    have hdigits : ∀ count, '\n' ∉ Nat.toDigits 10 count := by
      intro count hmem
      exact absurd ((IsNumeral.of_toDigits count).not_isBlank hmem) (by decide)
    simp [hparts.text_eq, SpanEnd.chars, h.no_feed, hdigits]
  refine ⟨?_, Text.trim_eq_self hhead hlast⟩
  rcases hending with rfl | rfl
  · rw [String.append_empty]
    apply Text.splitLines_of_no_feed _ hfeed
    simp [hparts.text_eq]
  · rw [String.toList_append]
    apply Text.splitLines_append_feed hfeed
    intro hreturn
    exact absurd (hlast '\r' hreturn) (by decide)

/-- An answer of one written span is read as one location. -/
theorem parseOutput_writtenSpan {path : String} (h : IsSpanPath path) {line column last : Nat}
    (hline : line + 1 < Nat.pow 2 64) (hcolumn : column + 1 < Nat.pow 2 64)
    (hlast : last + 1 < Nat.pow 2 64) {ending : String} (hending : ending = "" ∨ ending = "\n")
    (host : Host) (workspace : Workspace) :
    parseOutput host workspace (writtenSpan path line column last ++ ending) =
      [ToolSpan.location ⟨path, line, column, line, last⟩
        (workspace.openDocument host path).toOption] := by
  obtain ⟨hlines, htrim⟩ := splitLines_writtenSpan h line column last hending
  have hspan : parseSpan? (writtenSpan path line column last).toList =
      some ⟨path, line, column, line, last⟩ := by
    rw [(spanParts_writtenSpan h line column last).parseSpan?_eq, number?_toDigits hline,
      number?_toDigits hcolumn]
    simp [SpanEnd.line?, SpanEnd.column?, number?_toDigits hlast]
  rw [parseOutput, hlines]
  simp [htrim, hspan]

/-- The span of a hint's name in bytes denotes the location of the hint. -/
theorem location_of_nameOnLine {document : Document} {hint : Hint} {line : Line}
    {front rest : List Char} (h : document.NameOnLine hint line front rest) (path : String) :
    ToolSpan.location ⟨path, hint.line, Text.byteSize front, hint.line,
        Text.byteSize (front ++ hint.method.toList)⟩ (some document) = hint.location path := by
  have hstart := positionIn_byteSize h.line?_eq h.chars_eq
  have hstop : positionIn (some document) hint.line
      (Text.byteSize (front ++ hint.method.toList)) = ⟨hint.line, hint.endColumn⟩ := by
    have hchars : line.chars = (front ++ hint.method.toList) ++ rest := by
      rw [h.chars_eq, List.append_assoc]
    rw [positionIn_byteSize h.line?_eq hchars, h.endColumn_eq, List.length_append]
  rw [ToolSpan.location, hstart, hstop, ← h.startColumn_eq]
  rfl

/-- What is asked about a hint is the byte column of its name, and an answer with the byte columns
of its name is read as the location of the hint.  The numbers in an answer are numbers of the
machine; a text of more bytes than those can count has no such answer. -/
theorem spans_denote_hints {host : Host} {workspace : Workspace} {path text : String}
    (hread : host.readText (workspace.resolve path) = .ok text) (hpath : IsSpanPath path)
    {lookahead : Nat} {hint : Hint} (hhint : hint ∈ (Document.ofText text).hints lookahead) :
    ∃ line front rest, (Document.ofText text).line? hint.line = some line ∧
      line.text = front ++ hint.method ++ rest ∧ front.length = hint.startColumn ∧
      query host workspace path hint.position = .ok ((workspace.resolve path).display ++ ":" ++
        toString (hint.line + 1) ++ ":" ++ toString (front.utf8ByteSize + 1)) ∧
      (text.utf8ByteSize < Nat.pow 2 64 → ∀ ending, ending = "" ∨ ending = "\n" →
        parseOutput host workspace (writtenSpan path hint.line front.utf8ByteSize
          (front ++ hint.method).utf8ByteSize ++ ending) = [hint.location path]) := by
  obtain ⟨line, front, rest, hname⟩ := Document.exists_nameOnLine hhint
  refine ⟨line, String.ofList front, String.ofList rest, hname.line?_eq, ?_, ?_, ?_, ?_⟩
  · rw [← String.toList_inj]
    simpa [Line.chars] using hname.chars_eq
  · rw [String.length_ofList, hname.startColumn_eq]
  · rw [Text.utf8ByteSize_ofList]
    exact query_position hread hname
  · intro hsize ending hending
    have hstop : (String.ofList front ++ hint.method).utf8ByteSize =
        Text.byteSize (front ++ hint.method.toList) := by
      rw [← Text.byteSize_toList, String.toList_append, String.toList_ofList]
    obtain ⟨hline, hlast⟩ := lt_of_nameOnLine hname
    have hfront : Text.byteSize front ≤ Text.byteSize (front ++ hint.method.toList) := by
      rw [Text.byteSize_append]
      omega
    rw [Text.utf8ByteSize_ofList, hstop, parseOutput_writtenSpan hpath (by omega) (by omega)
      (by omega) hending, Workspace.openDocument_of_readText hread]
    exact congrArg (fun location => [location]) (location_of_nameOnLine hname path)

/-- A signature whose name has a character of two bytes, behind a blank of three. -/
def surfaceText : String :=
  "type Body interface \x7b\n\t\u3000Fläche() float64\n\x7d\n"

/-- A machine with that text under a name that looks like a span. -/
def surfaceHost : Host where
  root := .directory [(workspaceName,
    .directory [(⟨Path.ofText "a:1:2-3", by decide⟩, .file surfaceText.toUTF8.toList)])]
  isDirectory := rfl
  isRegular := by decide
  workingDirectory := []
  programs _ := none

/-- The name starts at byte four and ends at byte eleven, and its location is read back. -/
theorem spans_denote_hints_surface :
    query surfaceHost (.rootedAt (Path.ofText "/w")) "a:1:2-3" ⟨1, 2⟩ = .ok "/w/a:1:2-3:2:5" ∧
      parseOutput surfaceHost (.rootedAt (Path.ofText "/w")) "a:1:2-3:2:5-12\n" =
        [⟨"a:1:2-3", ⟨1, 2⟩, ⟨1, 8⟩⟩] := by
  have hread : surfaceHost.readText
      ((Workspace.rootedAt (Path.ofText "/w")).resolve "a:1:2-3") = .ok surfaceText := by
    decide +kernel
  have hhead : ∀ c ∈ "a:1:2-3".toList.head?, Text.isBlank c = false := by
    intro c hc
    obtain rfl : 'a' = c := by simpa using hc
    decide
  have hpath : IsSpanPath "a:1:2-3" := ⟨by decide, by decide, hhead⟩
  have hhint : ⟨1, 2, 8, "Fläche", .interface, "Body"⟩ ∈
      (Document.ofText surfaceText).hints 200 := by decide +kernel
  have hgiven : (Document.ofText surfaceText).line? 1 =
      some ⟨1, "\t\u3000Fläche() float64", false⟩ := by decide +kernel
  obtain ⟨line, front, rest, hline, htext, hlength, hquery, hparse⟩ :=
    spans_denote_hints hread hpath hhint
  obtain rfl := Option.some.inj (hgiven.symm.trans hline)
  have hfront : front = "\t\u3000" := by
    rw [← String.toList_inj]
    have htake := congrArg (fun text => text.toList.take 2) htext
    have hsize : front.toList.length = 2 := String.length_toList.trans hlength
    simpa [List.take_append, hsize, List.take_of_length_le (Nat.le_of_eq hsize)] using htake.symm
  subst hfront
  refine ⟨hquery.trans (by decide +kernel), ?_⟩
  exact hparse (by decide +kernel) "\n" (.inr rfl)

end Lookup.Gopls

end Wayfinder
