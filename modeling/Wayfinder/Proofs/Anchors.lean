import Wayfinder.Outline
import Wayfinder.Proofs.Interface.Completion
import Wayfinder.Proofs.Receiver

/-!
# Where hints stand

A hint stands on the name of a method, as a word of its own on a code line.  It is found
again in two ways: by a place on its name, and by the declaration around its line.  Both lead
back to the declaration that the hint was made from.

* `Hint.Anchored` says what standing on a name means, in characters of the line, and
  `Document.hints_anchored` that every hint of a text does.
* `Document.hints_disjoint`: no two hints of a text stand on a common place.  Each scanner
  reports at most one name for a line; on a line that both report, the signature is the
  keyword `func`, in front of the receiver.
* `Outline.interfaceAt?_line`, `Interface.find?_line` and
  `Outline.receiverMethodAt?_startLine`: the first line of a declaration leads to that very
  declaration.
-/

namespace Wayfinder

/-- If no two elements of a list have a property, an element that has it is found. -/
theorem find?_eq_some_of_pairwise {α : Type} {p : α → Bool} {elements : List α} {element : α}
    (h : elements.Pairwise fun first second => p first = true → p second = false)
    (hmem : element ∈ elements) (hp : p element = true) : elements.find? p = some element := by
  obtain ⟨before, after, rfl⟩ := List.append_of_mem hmem
  refine List.find?_eq_some_iff_append.2 ⟨hp, before, after, rfl, fun other hother => ?_⟩
  have hexclusive := (List.pairwise_append.1 h).2.2 other hother element List.mem_cons_self
  cases hvalue : p other with
  | false => rfl
  | true => exact absurd hp (by simp [hexclusive hvalue])

/-! ## The declarations around a line -/

/-- The line of a signature leads to its interface. -/
theorem Outline.interfaceAt?_line {outline : Outline} {size : Nat}
    (h : InSourceOrder size outline.interfaces) {interface : Interface}
    (hinterface : interface ∈ outline.interfaces) {method : Signature}
    (hmethod : method ∈ interface.methods) :
    outline.interfaceAt? method.line = some interface := by
  have hinside := (h.each interface hinterface).inside method hmethod
  refine find?_eq_some_of_pairwise (h.ordered.imp ?_) hinterface ?_
  · intro first second hbefore hfirst
    simp only [Interface.contains, Interface.Before, Bool.and_eq_true, decide_eq_true_eq,
      Bool.and_eq_false_iff, decide_eq_false_iff_not] at hbefore hfirst ⊢
    omega
  · simp only [Interface.contains, Bool.and_eq_true, decide_eq_true_eq]
    omega

/-- The signatures of an interface start one behind the other. -/
theorem Interface.WellFormed.lines_ascending {interface : Interface} (h : interface.WellFormed) :
    interface.methods.Pairwise fun method later => method.line < later.line := by
  refine h.ordered.imp_of_mem fun {method later} hmethod _ hbefore => ?_
  exact Nat.lt_of_le_of_lt (h.inside method hmethod).2.1 hbefore

/-- The line of a signature leads to the signature. -/
theorem Interface.find?_line {interface : Interface} (h : interface.WellFormed)
    {method : Signature} (hmethod : method ∈ interface.methods) :
    interface.methods.find? (·.line == method.line) = some method := by
  refine find?_eq_some_of_pairwise (h.lines_ascending.imp ?_) hmethod (beq_self_eq_true _)
  intro first second hlt hfirst
  rw [beq_iff_eq] at hfirst
  exact beq_false_of_ne (by omega)

/-- Of declarations that start one behind the other the last is the innermost. -/
theorem Outline.foldl_innermost {methods : List ReceiverMethod} {best : Option ReceiverMethod}
    {last : ReceiverMethod}
    (hlast : ∀ method ∈ methods, method.startLine ≤ last.startLine)
    (hbest : ∀ method ∈ best, method.startLine ≤ last.startLine) :
    (methods ++ [last]).foldl innermost best = some last := by
  induction methods generalizing best with
  | nil =>
    cases best with
    | none => rfl
    | some other => exact if_pos (hbest other rfl)
  | cons method more ih =>
    refine ih (fun other hother => hlast other (List.mem_cons_of_mem _ hother)) ?_
    have hmethod := hlast method List.mem_cons_self
    intro other hother
    cases best with
    | none =>
      obtain rfl := Option.some.inj hother
      exact hmethod
    | some earlier =>
      rw [innermost] at hother
      split at hother
      · obtain rfl := Option.some.inj hother
        exact hmethod
      · obtain rfl := Option.some.inj hother
        exact hbest _ rfl

/-- The first line of a declaration leads to that declaration, also inside another. -/
theorem Outline.receiverMethodAt?_startLine {outline : Outline}
    (h : outline.receiverMethods.Pairwise fun method later => method.startLine < later.startLine)
    {method : ReceiverMethod} (hmethod : method ∈ outline.receiverMethods)
    (hle : method.startLine ≤ method.endLine) :
    outline.receiverMethodAt? method.startLine = some method := by
  obtain ⟨before, after, hsplit⟩ := List.append_of_mem hmethod
  rw [hsplit] at h
  obtain ⟨_, hafter, hbefore⟩ := List.pairwise_append.1 h
  have hself : method.contains method.startLine = true := by
    simp [ReceiverMethod.contains, hle]
  -- What starts behind the declaration does not contain its first line.
  have hnone : after.filter (·.contains method.startLine) = [] := by
    refine List.filter_eq_nil_iff.2 fun later hlater => ?_
    have hlt := (List.pairwise_cons.1 hafter).1 later hlater
    simp only [ReceiverMethod.contains, Bool.and_eq_true, decide_eq_true_eq]
    omega
  rw [receiverMethodAt?, hsplit, List.filter_append, List.filter_cons, if_pos hself, hnone]
  refine foldl_innermost (fun other hother => ?_) (by simp)
  exact Nat.le_of_lt (hbefore other (List.mem_of_mem_filter hother) method List.mem_cons_self)

/-! ## The names of declarations -/

namespace Document

variable {text : String} {lookahead : Nat}

/-- A signature stands on a code line, behind blanks. -/
theorem exists_signature_heading {interface : Interface}
    (hmem : interface ∈ (ofText text).interfaces lookahead) {method : Signature}
    (hmethod : method ∈ interface.methods) :
    ∃ line ∈ (ofText text).codeLines, line.index = method.line ∧ ∃ reading lead name gap rest,
      Heading.SignatureParts line.chars reading lead name gap rest ∧
      method.name = String.ofList name ∧ method.column = lead.length := by
  obtain ⟨before, line, inner, rest, last, draft, hlines, hdraft, _, rfl⟩ :=
    (reads_methods hmem).exists_spans_of_mem hmethod
  obtain ⟨reading, span, hread, hspan, rfl⟩ := Draft.ofLine?_eq_some_iff.1 hdraft
  have hline : line ∈ (ofText text).bodyLines interface := by
    rw [hlines]
    simp
  obtain ⟨lead, name, gap, rest, hparts⟩ := Heading.exists_signatureParts hread
  obtain rfl := Option.some.inj (hspan.symm.trans hparts.group_eq)
  refine ⟨line, mem_codeLines.2 (mem_bodyLines.1 hline).1, rfl, reading, lead, name, gap, rest,
    hparts, ?_, rfl⟩
  show Span.text ⟨lead.length, lead.length + name.length⟩ line.chars = String.ofList name
  rw [hparts.line_eq]
  exact Span.text_append lead name _

/-- A method with a receiver stands on a code line, behind its head. -/
theorem exists_receiver_heading {method : ReceiverMethod}
    (hmethod : method ∈ (ofText text).receiverMethods) :
    ∃ line ∈ (ofText text).codeLines, line.index = method.startLine ∧
      ∃ reading lead inner middle name gap rest,
        Heading.ReceiverParts line.chars reading lead inner middle name gap rest ∧
        method.name = String.ofList name ∧
        method.column = (Heading.receiverHead lead inner middle).length := by
  rw [receiverMethods_eq] at hmethod
  obtain ⟨before, line, more, hlines, hcode, hline⟩ := ReceiverMethod.exists_of_mem_among hmethod
  obtain ⟨hstart, reading, lead, inner, middle, name, gap, rest, _, hparts, hname, hcolumn, _⟩ :=
    ReceiverMethod.exists_parts_of_ofLine? hline
  exact ⟨line, mem_codeLines.2 ⟨by simp [hlines], hcode⟩, hstart.symm, reading, lead, inner, middle,
    name, gap, rest, hparts, hname, hcolumn⟩

theorem receiverMethod_startLine_le {method : ReceiverMethod}
    (hmethod : method ∈ (ofText text).receiverMethods) : method.startLine ≤ method.endLine := by
  rw [receiverMethods_eq] at hmethod
  obtain ⟨before, line, more, hlines, hcomment, hline⟩ :=
    ReceiverMethod.exists_of_mem_among hmethod
  have hascending := ofText_ascending text
  rw [hlines] at hascending
  exact ReceiverMethod.startLine_le_endLine hascending.of_append_right
    (by simp [Line.isCode, hcomment]) hline

end Document

/-! ## Hints -/

theorem Hint.covers_iff {hint : Hint} {line column : Nat} :
    hint.covers line column = true ↔
      hint.line = line ∧ hint.startColumn ≤ column ∧ column < hint.endColumn := by
  simp only [covers, Bool.and_eq_true, beq_iff_eq, decide_eq_true_eq]

/-- A hint stands on its name.  The line is no comment line, the characters between the columns
spell the name, and the name is a word that goes on neither to the left nor to the right.  On the
side of an interface it is also the first place on the line with that name. -/
structure Hint.Anchored (hint : Hint) (line : Line) : Prop where
  line_isCode : line.isComment = false
  start_lt_end : hint.startColumn < hint.endColumn
  end_le_length : hint.endColumn ≤ line.chars.length
  spells : Span.chars ⟨hint.startColumn, hint.endColumn⟩ line.chars = hint.method.toList
  word : ∀ c ∈ hint.method.toList, Text.isWord c = true
  not_preceded : ∀ column c, column + 1 = hint.startColumn → line.chars[column]? = some c →
    Text.isWord c = false
  not_followed : ∀ c, line.chars[hint.endColumn]? = some c → Text.isWord c = false
  first : hint.side = .interface → ∀ column < hint.startColumn,
    ¬ hint.method.toList <+: line.chars.drop column

/-- No place is covered by both hints. -/
def Hint.Apart (hint other : Hint) : Prop :=
  ∀ line column, hint.covers line column = true → other.covers line column = false

theorem Hint.apart_of_line_lt {hint other : Hint} (h : hint.line < other.line) :
    hint.Apart other := by
  intro line column hcovers
  rw [← Bool.not_eq_true, covers_iff]
  rw [covers_iff] at hcovers
  omega

namespace Document

variable {text : String} {lookahead : Nat}

/-- A hint is made from a signature of an interface or from a method with a receiver. -/
theorem mem_hints_iff {document : Document} {hint : Hint} :
    hint ∈ document.hints lookahead ↔
      (∃ interface ∈ document.interfaces lookahead, ∃ method ∈ interface.methods,
        hint = Hint.ofSignature interface.name method) ∨
      ∃ method ∈ document.receiverMethods, hint = Hint.ofReceiverMethod method := by
  simp only [hints, Outline.hints, outline, List.mem_append, List.mem_flatMap, List.mem_map,
    eq_comm]

/-- The name of a hint stands on the hint's line, between its columns and in front of something
else. -/
structure NameOnLine (document : Document) (hint : Hint) (line : Line) (front rest : List Char) :
    Prop where
  line?_eq : document.line? hint.line = some line
  chars_eq : line.chars = front ++ (hint.method.toList ++ rest)
  name_ne_nil : hint.method.toList ≠ []
  rest_ne_nil : rest ≠ []
  startColumn_eq : hint.startColumn = front.length
  endColumn_eq : hint.endColumn = front.length + hint.method.toList.length

/-- The name of a hint stands on its line as a word of its own.  The name of a signature has
nothing but blanks in front. -/
structure WordOnLine (document : Document) (hint : Hint) (line : Line) (front rest : List Char) :
    Prop extends NameOnLine document hint line front rest where
  line_isCode : line.isComment = false
  name_word : ∀ c ∈ hint.method.toList, Text.isWord c = true
  front_last : ∀ c ∈ front.getLast?, Text.isWord c = false
  rest_head : ∀ c ∈ rest.head?, Text.isWord c = false
  front_blank : hint.side = .interface → ∀ c ∈ front, Text.isBlank c = true

theorem exists_wordOnLine {hint : Hint} (h : hint ∈ (ofText text).hints lookahead) :
    ∃ line front rest, (ofText text).WordOnLine hint line front rest := by
  rcases mem_hints_iff.1 h with
    ⟨interface, hinterface, method, hmethod, rfl⟩ | ⟨method, hmethod, rfl⟩
  · obtain ⟨line, hline, hindex, _, lead, name, gap, rest, hparts, hname, hcolumn⟩ :=
      exists_signature_heading hinterface hmethod
    obtain ⟨hmem, hcode⟩ := mem_codeLines.1 hline
    have hblank : ∀ c ∈ lead.getLast?, Text.isWord c = false := fun c hc =>
      Text.not_isWord_of_isBlank (hparts.lead_blank c (List.mem_of_getLast? hc))
    refine ⟨line, lead, gap ++ '(' :: rest, ⟨?_, ?_, ?_, by simp, hcolumn, ?_⟩, hcode, ?_, hblank,
      Heading.not_isWord_head?_gap hparts.gap_blank, fun _ => hparts.lead_blank⟩
    all_goals simp only [Hint.ofSignature, Hint.onName, hname, hcolumn, String.toList_ofList]
    · exact hindex ▸ line?_index hmem
    · exact hparts.line_eq
    · exact hparts.name_ne_nil
    · rw [String.length_ofList]
    · exact hparts.name_word
  · obtain ⟨line, hline, hindex, _, lead, inner, middle, name, gap, rest, hparts, hname, hcolumn⟩ :=
      exists_receiver_heading hmethod
    obtain ⟨hmem, hcode⟩ := mem_codeLines.1 hline
    refine ⟨line, Heading.receiverHead lead inner middle, gap ++ '(' :: rest,
      ⟨?_, ?_, ?_, by simp, hcolumn, ?_⟩, hcode, ?_,
      Heading.not_isWord_getLast?_receiverHead hparts.middle_blank,
      Heading.not_isWord_head?_gap hparts.gap_blank, by rintro ⟨⟩⟩
    all_goals simp only [Hint.ofReceiverMethod, Hint.onName, hname, hcolumn, String.toList_ofList]
    · exact hindex ▸ line?_index hmem
    · exact hparts.line_eq
    · exact hparts.name_ne_nil
    · rw [String.length_ofList]
    · exact hparts.name_word

theorem exists_nameOnLine {hint : Hint} (h : hint ∈ (ofText text).hints lookahead) :
    ∃ line front rest, (ofText text).NameOnLine hint line front rest := by
  obtain ⟨line, front, rest, hword⟩ := exists_wordOnLine h
  exact ⟨line, front, rest, hword.toNameOnLine⟩

/-- A hint whose name is a word of its own stands on it. -/
theorem WordOnLine.anchored {document : Document} {hint : Hint} {line : Line}
    {front rest : List Char} (h : document.WordOnLine hint line front rest) :
    hint.Anchored line := by
  have hpositive := List.length_pos_iff.2 h.name_ne_nil
  have hstart := h.startColumn_eq
  have hend := h.endColumn_eq
  have hchars := h.chars_eq
  refine ⟨h.line_isCode, by omega, ?_, ?_, h.name_word, ?_, ?_, ?_⟩
  · rw [hchars, List.length_append, List.length_append]
    omega
  · rw [hchars, hstart, hend, Span.chars_append]
  · intro column c hcolumn hc
    have hlast : front.getLast? = some c := by
      rw [hchars, List.getElem?_append_left (by omega)] at hc
      rw [List.getLast?_eq_getElem?, ← hc]
      congr 1
      omega
    exact h.front_last c hlast
  · intro c hc
    have hhead : rest.head? = some c := by
      rw [hchars, ← List.append_assoc, hend, ← List.length_append,
        List.getElem?_append_right (Nat.le_refl _), Nat.sub_self] at hc
      rw [List.head?_eq_getElem?, hc]
    exact h.rest_head c hhead
  · intro hside column hcolumn hstarts
    -- an earlier place starts with a blank, and the name does not
    obtain ⟨c, more, hname⟩ := List.exists_cons_of_ne_nil h.name_ne_nil
    have hword : Text.isWord c = true := h.name_word c (hname ▸ List.mem_cons_self)
    have hlt : column < front.length := by omega
    have hdrop : line.chars.drop column =
        front.get ⟨column, hlt⟩ :: (line.chars.drop column).tail := by
      rw [hchars, List.drop_append_of_le_length (by omega), List.drop_eq_getElem_cons hlt]
      rfl
    rw [hname, hdrop, List.cons_prefix_cons] at hstarts
    have hblank := h.front_blank hside c (hstarts.1 ▸ List.getElem_mem hlt)
    rw [Text.not_isBlank_of_isWord hword] at hblank
    cases hblank

/-- Every hint of a text, with any lookahead, stands on its name. -/
theorem hints_anchored {hint : Hint} (h : hint ∈ (ofText text).hints lookahead) :
    ∃ line, (ofText text).line? hint.line = some line ∧ hint.Anchored line := by
  obtain ⟨line, front, rest, hword⟩ := exists_wordOnLine h
  exact ⟨line, hword.line?_eq, hword.anchored⟩

/-- A signature behind a wide blank that is reported two lines later, and a method whose receiver
has the letters of its name.  Some characters take several bytes. -/
def accentedText : String :=
  "type Größe interface \x7b\n\u3000Fläche(\n\n)\n\x7d\nfunc (lä *Lä)\tLä (ß int) \x7b\x7d"

theorem hints_anchored_accented :
    ⟨1, 1, 7, "Fläche", .interface, "Größe"⟩ ∈ (ofText accentedText).hints 3 ∧
      ⟨5, 14, 16, "Lä", .receiver, "Lä"⟩ ∈ (ofText accentedText).hints 3 ∧
      (∃ line, (ofText accentedText).line? 1 = some line ∧
        Hint.Anchored ⟨1, 1, 7, "Fläche", .interface, "Größe"⟩ line) ∧
      ∃ line, (ofText accentedText).line? 5 = some line ∧
        Hint.Anchored ⟨5, 14, 16, "Lä", .receiver, "Lä"⟩ line := by
  have hsignature : ⟨1, 1, 7, "Fläche", .interface, "Größe"⟩ ∈ (ofText accentedText).hints 3 := by
    decide +kernel
  have hreceiver : ⟨5, 14, 16, "Lä", .receiver, "Lä"⟩ ∈ (ofText accentedText).hints 3 := by
    decide +kernel
  exact ⟨hsignature, hreceiver, hints_anchored hsignature, hints_anchored hreceiver⟩

/-- The name of a hint is not empty. -/
theorem hint_startColumn_lt {hint : Hint} (h : hint ∈ (ofText text).hints lookahead) :
    hint.startColumn < hint.endColumn := by
  obtain ⟨line, front, rest, hname⟩ := exists_nameOnLine h
  have hlength := List.length_pos_iff.2 hname.name_ne_nil
  rw [hname.startColumn_eq, hname.endColumn_eq]
  omega

/-- The hints of the interfaces stand on lines that ascend. -/
theorem signature_hints_ascending (text : String) (lookahead : Nat) :
    (((ofText text).interfaces lookahead).flatMap fun interface =>
      interface.methods.map (Hint.ofSignature interface.name)).Pairwise
        fun hint later => hint.line < later.line := by
  have horder := (sweep_sound text lookahead).finish
  refine List.pairwise_flatMap.2 ⟨fun interface hinterface => ?_, ?_⟩
  · exact List.pairwise_map.2 (horder.each interface hinterface).lines_ascending
  · refine horder.ordered.imp_of_mem fun {interface later} hinterface hlater hbefore => ?_
    intro hint hhint other hother
    obtain ⟨method, hmethod, rfl⟩ := List.mem_map.1 hhint
    obtain ⟨next, hnext, rfl⟩ := List.mem_map.1 hother
    have hinside := (horder.each interface hinterface).inside method hmethod
    have hbehind := (horder.each later hlater).inside next hnext
    rw [Interface.Before] at hbefore
    simp only [Hint.ofSignature, Hint.onName]
    omega

/-- A signature and a method with a receiver stand on different places. -/
theorem signature_apart_receiver {interface : Interface}
    (hinterface : interface ∈ (ofText text).interfaces lookahead) {signature : Signature}
    (hsignature : signature ∈ interface.methods) {method : ReceiverMethod}
    (hmethod : method ∈ (ofText text).receiverMethods) :
    (Hint.ofSignature interface.name signature).Apart (Hint.ofReceiverMethod method) := by
  obtain ⟨line, hline, hindex, _, lead, name, _, _, hparts, hname, hcolumn⟩ :=
    exists_signature_heading hinterface hsignature
  obtain ⟨line', hline', hindex', _, lead', inner, middle, _, _, _, hparts', _, hcolumn'⟩ :=
    exists_receiver_heading hmethod
  intro row column hcovers
  rw [Hint.covers_iff] at hcovers
  rw [← Bool.not_eq_true, Hint.covers_iff]
  simp only [Hint.ofSignature, Hint.ofReceiverMethod, Hint.onName] at hcovers ⊢
  by_cases hsame : signature.line = method.startLine
  · -- The signature is the keyword, which ends in front of the receiver.
    obtain rfl : line = line' :=
      (codeLines_ascending text).eq_of_index_eq hline hline' (by omega)
    obtain ⟨rfl, rfl⟩ := hparts.eq_func hparts'
    have hend : signature.column + signature.name.length = 4 := by
      rw [hname, hcolumn]
      rfl
    have hstart : 4 < method.column := by
      rw [hcolumn', Heading.receiverHead]
      simp only [List.length_append, List.length_cons]
      have : "func".toList.length = 4 := rfl
      omega
    omega
  · omega

/-- No two hints of a text stand on a common place. -/
theorem hints_disjoint (text : String) (lookahead : Nat) :
    ((ofText text).hints lookahead).Pairwise Hint.Apart := by
  refine List.pairwise_append.2 ⟨?_, ?_, ?_⟩
  · exact (signature_hints_ascending text lookahead).imp Hint.apart_of_line_lt
  · exact List.pairwise_map.2 ((receiverMethods_ascending text).imp Hint.apart_of_line_lt)
  · intro hint hhint other hother
    obtain ⟨interface, hinterface, hhint⟩ := List.mem_flatMap.1 hhint
    obtain ⟨signature, hsignature, rfl⟩ := List.mem_map.1 hhint
    obtain ⟨method, hmethod, rfl⟩ := List.mem_map.1 hother
    exact signature_apart_receiver hinterface hsignature hmethod

/-- A place on the name of a hint leads to that hint. -/
theorem find?_covers {hint : Hint} (h : hint ∈ (ofText text).hints lookahead) {line column : Nat}
    (hcovers : hint.covers line column = true) :
    ((ofText text).hints lookahead).find? (·.covers line column) = some hint :=
  find?_eq_some_of_pairwise ((hints_disjoint text lookahead).imp fun hapart => hapart line column)
    h hcovers

/-- The line of a hint on a receiver's method leads to the declaration that the hint was made
from. -/
theorem exists_receiverMethodAt? {hint : Hint} (h : hint ∈ (ofText text).hints lookahead)
    (hside : hint.side = .receiver) :
    ∃ method, hint = Hint.ofReceiverMethod method ∧
      ((ofText text).outline lookahead).receiverMethodAt? hint.line = some method := by
  rcases mem_hints_iff.1 h with ⟨interface, _, method, _, rfl⟩ | ⟨method, hmethod, rfl⟩
  · cases hside
  · refine ⟨method, rfl, ?_⟩
    exact Outline.receiverMethodAt?_startLine (receiverMethods_ascending text) hmethod
      (receiverMethod_startLine_le hmethod)

/-- The line of a hint on a signature leads to the interface and the signature that the hint
was made from. -/
theorem exists_interfaceAt? {hint : Hint} (h : hint ∈ (ofText text).hints lookahead)
    (hside : hint.side = .interface) :
    ∃ interface method line, hint = Hint.ofSignature interface.name method ∧
      ((ofText text).outline lookahead).interfaceAt? hint.line = some interface ∧
      interface.methods.find? (·.line == hint.line) = some method ∧
      (ofText text).line? hint.line = some line := by
  rcases mem_hints_iff.1 h with ⟨interface, hinterface, method, hmethod, rfl⟩ | ⟨method, _, rfl⟩
  · have horder := (sweep_sound text lookahead).finish
    obtain ⟨line, hline, hindex, _⟩ := exists_signature_heading hinterface hmethod
    refine ⟨interface, method, line, rfl, ?_, ?_, ?_⟩
    · exact Outline.interfaceAt?_line horder hinterface hmethod
    · exact Interface.find?_line (horder.each interface hinterface) hmethod
    · show (ofText text).line? method.line = some line
      rw [← hindex]
      exact line?_index (mem_codeLines.1 hline).1
  · cases hside

end Document

end Wayfinder
