import Wayfinder.Document
import Wayfinder.Heading
import Wayfinder.Proofs.Columns
import Wayfinder.Proofs.Pattern
import Wayfinder.Proofs.Text

/-!
# The shape of headings

What a line looks like that opens an interface, starts a signature or starts a method
with a receiver, read off the line patterns.

* `Heading.SignatureParts` takes the line of a signature apart, and
  `Heading.exists_signatureParts` says that every line that matches can be.  Such a
  line is not blank (`Line.isBlank_of_signature`).
* `Heading.ReceiverParts` does the same for a method with a receiver
  (`Heading.exists_receiverParts`).  Where a line starts both, the signature is the
  keyword (`Heading.SignatureParts.eq_func`).
* The name in the heading is captured in all patterns, so a heading that matches
  always has a name.  Its column, found by way of its byte offset, is the one at which it
  was captured (`Span.charColumn_byteStart`).
-/

namespace Wayfinder

/-- The bytes in front of a span lead to the character column at which it starts. -/
theorem Span.charColumn_byteStart {span : Span} {line : List Char}
    (h : span.start ≤ line.length) : Text.charColumn line (span.byteStart line) = span.start := by
  have hcolumn := Text.charColumn_byteSize (line.take span.start) (line.drop span.start)
  rwa [List.take_append_drop, List.length_take, Nat.min_eq_left h] at hcolumn

namespace Heading

open Pattern

/-! ## Signatures -/

/-- A line that starts a signature is a lead of blanks, a name, a gap of blanks, an opening
parenthesis, and the rest.  Its reading captures the name. -/
structure SignatureParts (line : List Char) (reading : Reading)
    (lead name gap rest : List Char) : Prop where
  line_eq : line = lead ++ (name ++ (gap ++ '(' :: rest))
  lead_blank : ∀ c ∈ lead, Text.isBlank c = true
  name_ne_nil : name ≠ []
  name_word : ∀ c ∈ name, Text.isWord c = true
  gap_blank : ∀ c ∈ gap, Text.isBlank c = true
  rest_eq : reading.rest = rest
  groups_eq : reading.groups = [(1, ⟨lead.length, lead.length + name.length⟩)]

variable {line lead name gap rest : List Char} {reading : Reading}

theorem exists_signatureParts (h : signature.read? line = some reading) :
    ∃ lead name gap rest, SignatureParts line reading lead name gap rest := by
  have hmem := mem_readings_of_read? h
  simp only [signature, Pattern.sequence, blanks, word, text, mem_readings_seq, mem_readings_run,
    mem_readings_capture, mem_readings_literal, Reading.start] at hmem
  obtain ⟨_, ⟨lead, behindLead, hline, _, hlead, rfl⟩, _, ⟨_, ⟨name, behindName, hname, hlength,
    hword, rfl⟩, rfl⟩, _, ⟨gap, behindGap, hgap, _, hblank, rfl⟩, rest, hrest, rfl⟩ := hmem
  simp only at hname hgap hrest
  refine ⟨lead, name, gap, rest, ?_, hlead, ?_, hword, hblank, rfl, ?_⟩
  · rw [hline, hname, hgap, hrest]
    rfl
  · exact List.ne_nil_of_length_pos hlength
  · simp

namespace SignatureParts

theorem group_eq (h : SignatureParts line reading lead name gap rest) :
    reading.group? 1 = some ⟨lead.length, lead.length + name.length⟩ := by
  rw [Reading.group?, h.groups_eq]
  rfl

theorem charColumn_eq (h : SignatureParts line reading lead name gap rest) {span : Span}
    (hspan : reading.group? 1 = some span) :
    Text.charColumn line (span.byteStart line) = span.start := by
  rw [h.group_eq] at hspan
  cases hspan
  exact Span.charColumn_byteStart (by simp [h.line_eq])

/-- Trimmed, the line begins with the first character of the name. -/
theorem head?_trim (h : SignatureParts line reading lead name gap rest) :
    (Text.trim line).head? = name.head? := by
  obtain ⟨c, more, rfl⟩ := List.exists_cons_of_ne_nil h.name_ne_nil
  have hword := h.name_word c (List.mem_cons_self ..)
  rw [h.line_eq, List.cons_append,
    Text.trim_of_blank_append h.lead_blank (Text.not_isBlank_of_isWord hword)]
  rfl

end SignatureParts

/-! ## Interfaces -/

/-- The heading of an interface captures a name. -/
theorem exists_group_of_interface (h : interface.read? line = some reading) :
    ∃ name, reading.group? 1 = some name := by
  have hmem := mem_readings_of_read? h
  simp only [interface, Pattern.sequence, blanks, gap, word, text, mem_readings_seq,
    mem_readings_run, mem_readings_capture, mem_readings_literal, Reading.start] at hmem
  obtain ⟨_, ⟨_, _, rfl⟩, _, ⟨_, _, _, _, _, rfl⟩, _, ⟨_, ⟨name, _, _, _, _, rfl⟩, rfl⟩, _,
    ⟨_, _, _, _, _, rfl⟩, _, ⟨_, _, rfl⟩, _, ⟨_, _, _, _, _, rfl⟩, _, _, rfl⟩ := hmem
  exact ⟨_, rfl⟩

/-! ## Methods with a receiver -/

/-- Whether a character can stand in front of the type of a receiver: in its name, in a blank or
as the mark of a pointer. -/
def isPlain (c : Char) : Bool :=
  Text.isBlank c || Text.isWord c || c == '*'

theorem isPlain_of_isBlank {c : Char} (h : Text.isBlank c = true) : isPlain c = true := by
  rw [isPlain, h, Bool.true_or, Bool.true_or]

theorem isPlain_of_isWord {c : Char} (h : Text.isWord c = true) : isPlain c = true := by
  rw [isPlain, h, Bool.or_true, Bool.true_or]

/-- The name of a receiver and the mark of a pointer take plain characters, and capture at most the
name. -/
theorem exists_front {place owner after : Reading}
    (howner : owner ∈ (maybe (seq (capture 1 word) blanks) .shortest).readings place)
    (hafter : after ∈ (maybe (text "*") .longest).readings owner) :
    ∃ front, place.rest = front ++ after.rest ∧ after.column = place.column + front.length ∧
      (∀ c ∈ front, isPlain c = true) ∧
      (after.groups = place.groups ∨ ∃ span, after.groups = place.groups ++ [(1, span)]) := by
  have hname : ∃ front, place.rest = front ++ owner.rest ∧
      owner.column = place.column + front.length ∧ (∀ c ∈ front, isPlain c = true) ∧
      (owner.groups = place.groups ∨ ∃ span, owner.groups = place.groups ++ [(1, span)]) := by
    simp only [word, blanks, mem_readings_maybe, mem_readings_seq, mem_readings_capture,
      mem_readings_run] at howner
    rcases howner with rfl | ⟨_, ⟨_, ⟨name, _, hname, _, hword, rfl⟩, rfl⟩, gap, rest, hgap, _,
      hblank, rfl⟩
    · exact ⟨[], rfl, rfl, by simp, Or.inl rfl⟩
    · simp only at hgap
      refine ⟨name ++ gap, ?_, ?_, ?_, Or.inr ⟨_, rfl⟩⟩
      · rw [hname, hgap, List.append_assoc]
      · rw [List.length_append, Nat.add_assoc]
      · intro c hc
        rcases List.mem_append.1 hc with hc | hc
        · exact isPlain_of_isWord (hword c hc)
        · exact isPlain_of_isBlank (hblank c hc)
  obtain ⟨front, hrest, hcolumn, hplain, hgroups⟩ := hname
  simp only [text, mem_readings_maybe, mem_readings_literal] at hafter
  rcases hafter with rfl | ⟨rest, hstar, rfl⟩
  · exact ⟨front, hrest, hcolumn, hplain, hgroups⟩
  · refine ⟨front ++ ['*'], ?_, ?_, ?_, hgroups⟩
    · rw [hrest, hstar, List.append_assoc]
      rfl
    · rw [hcolumn, List.length_append, ← Nat.add_assoc]
      rfl
    · intro c hc
      rcases List.mem_append.1 hc with hc | hc
      · exact hplain c hc
      · rw [List.mem_singleton.1 hc]
        rfl

theorem isWord_of_mem_func : ∀ c ∈ "func".toList, Text.isWord c = true :=
  List.all_eq_true.1 (by decide +kernel)

/-- The keyword and a receiver in parentheses, with blanks behind each. -/
def receiverHead (lead inner middle : List Char) : List Char :=
  "func".toList ++ (lead ++ '(' :: (inner ++ ')' :: middle))

/-- A line that starts a method with a receiver is a head, a name, a gap of blanks, an opening
parenthesis, and the rest.  The reading captures the type of the receiver and the name. -/
structure ReceiverParts (line : List Char) (reading : Reading)
    (lead inner middle name gap rest : List Char) : Prop where
  line_eq : line = receiverHead lead inner middle ++ (name ++ (gap ++ '(' :: rest))
  lead_blank : ∀ c ∈ lead, Text.isBlank c = true
  inner_plain : ∀ c ∈ inner, isPlain c = true
  middle_blank : ∀ c ∈ middle, Text.isBlank c = true
  name_ne_nil : name ≠ []
  name_word : ∀ c ∈ name, Text.isWord c = true
  gap_blank : ∀ c ∈ gap, Text.isBlank c = true
  rest_eq : reading.rest = rest
  exists_type : ∃ span, reading.group? 2 = some span
  name_group : reading.group? 3 =
    some ⟨(receiverHead lead inner middle).length,
      (receiverHead lead inner middle).length + name.length⟩

theorem exists_receiverParts (h : receiver.read? line = some reading) :
    ∃ lead inner middle name gap rest,
      ReceiverParts line reading lead inner middle name gap rest := by
  have hmem := mem_readings_of_read? h
  simp only [receiver, Pattern.sequence, mem_readings_seq] at hmem
  obtain ⟨_, hfunc, _, hlead, _, hopen, _, hindent, owner, howner, star, hstar, _, hspace, _, htype,
    _, hbehind, _, hclose, _, hmiddle, _, hname, _, hgap, hrest⟩ := hmem
  obtain ⟨front, hfront, hcolumn, hplain, hgroups⟩ := exists_front howner hstar
  simp only [blanks, word, text, mem_readings_run, mem_readings_capture, mem_readings_literal,
    Reading.start] at hfunc hlead hopen hindent hspace htype hbehind hclose hmiddle hname hgap hrest
  obtain ⟨_, hfunc, rfl⟩ := hfunc
  obtain ⟨lead, _, hlead, _, hleadBlank, rfl⟩ := hlead
  obtain ⟨_, hopen, rfl⟩ := hopen
  obtain ⟨indent, _, hindent, _, hindentBlank, rfl⟩ := hindent
  obtain ⟨space, _, hspace, _, hspaceBlank, rfl⟩ := hspace
  obtain ⟨_, ⟨type, _, htype, _, htypeWord, rfl⟩, rfl⟩ := htype
  obtain ⟨behind, _, hbehind, _, hbehindBlank, rfl⟩ := hbehind
  obtain ⟨_, hclose, rfl⟩ := hclose
  obtain ⟨middle, _, hmiddle, _, hmiddleBlank, rfl⟩ := hmiddle
  obtain ⟨_, ⟨name, _, hname, hlength, hnameWord, rfl⟩, rfl⟩ := hname
  obtain ⟨gap, _, hgap, _, hgapBlank, rfl⟩ := hgap
  obtain ⟨rest, hrest, rfl⟩ := hrest
  simp only at hlead hopen hindent hfront hcolumn hgroups
  simp only at htype hbehind hclose hmiddle hname hgap hrest
  refine ⟨lead, indent ++ (front ++ (space ++ (type ++ behind))), middle, name, gap, rest, ?_,
    hleadBlank, ?_, hmiddleBlank, List.ne_nil_of_length_pos hlength, hnameWord, hgapBlank, rfl,
    ?_, ?_⟩
  · rw [hfunc, hlead, hopen, hindent, hfront, hspace, htype, hbehind, hclose, hmiddle, hname, hgap,
      hrest]
    simp [receiverHead]
  · simp only [List.forall_mem_append]
    exact ⟨fun c hc => isPlain_of_isBlank (hindentBlank c hc), hplain,
      fun c hc => isPlain_of_isBlank (hspaceBlank c hc),
      fun c hc => isPlain_of_isWord (htypeWord c hc),
      fun c hc => isPlain_of_isBlank (hbehindBlank c hc)⟩
  · rcases hgroups with hgroups | ⟨span, hgroups⟩ <;>
      exact ⟨_, by simp only [Reading.group?, hgroups]; rfl⟩
  · have hstart : star.column + space.length + type.length + behind.length + 1 + middle.length =
        (receiverHead lead (indent ++ (front ++ (space ++ (type ++ behind)))) middle).length := by
      simp only [receiverHead, hcolumn, List.length_append, List.length_cons, String.length_toList]
      have : "func".length = 4 := rfl
      have : "(".length = 1 := rfl
      omega
    rw [← hstart]
    rcases hgroups with hgroups | ⟨span, hgroups⟩ <;>
      (simp only [Reading.group?, hgroups]; rfl)

/-- The column of the name, found by way of its byte offset, is where the heading captures it. -/
theorem ReceiverParts.charColumn_eq {line lead inner middle name gap rest : List Char}
    {reading : Reading} (h : ReceiverParts line reading lead inner middle name gap rest)
    {span : Span} (hspan : reading.group? 3 = some span) :
    Text.charColumn line (span.byteStart line) = span.start := by
  rw [h.name_group] at hspan
  cases hspan
  exact Span.charColumn_byteStart (by simp [h.line_eq])

/-! ## Where a name begins and ends -/

/-- No word goes on into a gap before a parenthesis. -/
theorem takeWhile_isWord_gap {gap : List Char} (hgap : ∀ c ∈ gap, Text.isBlank c = true)
    (rest : List Char) : (gap ++ '(' :: rest).takeWhile Text.isWord = [] := by
  have hparen : Text.isWord '(' = false := by decide +kernel
  cases gap with
  | nil => simp [hparen]
  | cons c more => simp [Text.not_isWord_of_isBlank (hgap c List.mem_cons_self)]

/-- Behind a name stands a blank or a parenthesis. -/
theorem not_isWord_head?_gap {gap : List Char} (hgap : ∀ c ∈ gap, Text.isBlank c = true)
    {rest : List Char} : ∀ c ∈ (gap ++ '(' :: rest).head?, Text.isWord c = false := by
  have htake := takeWhile_isWord_gap hgap rest
  intro c hc
  obtain ⟨more, hmore⟩ := List.head?_eq_some_iff.1 hc
  rw [hmore] at htake
  by_contra hword
  rw [List.takeWhile_cons_of_pos (eq_true_of_ne_false hword)] at htake
  cases htake

/-- In front of the name of a method with a receiver stands a blank or a parenthesis. -/
theorem not_isWord_getLast?_receiverHead {lead inner middle : List Char}
    (hmiddle : ∀ c ∈ middle, Text.isBlank c = true) :
    ∀ c ∈ (receiverHead lead inner middle).getLast?, Text.isWord c = false := by
  have hparen : Text.isWord ')' = false := by decide +kernel
  have hlast : (receiverHead lead inner middle).getLast? = (')' :: middle).getLast? := by
    simp [receiverHead, List.getLast?_append, List.getLast?_cons]
  intro c hc
  rw [hlast] at hc
  rcases List.mem_cons.1 (List.mem_of_getLast? hc) with rfl | hmem
  · exact hparen
  · exact Text.not_isWord_of_isBlank (hmiddle c hmem)

/-! ## Lines that start both -/

/-- Where a method with a receiver starts, the name of a signature is the keyword. -/
theorem SignatureParts.eq_func {reading' : Reading}
    {lead' inner middle name' gap' rest' : List Char}
    (h : SignatureParts line reading lead name gap rest)
    (hreceiver : ReceiverParts line reading' lead' inner middle name' gap' rest') :
    lead = [] ∧ name = "func".toList := by
  have hnameLine : name ++ (gap ++ '(' :: rest) = line := by
    obtain ⟨c, more, rfl⟩ := List.exists_cons_of_ne_nil h.name_ne_nil
    have hc := Text.not_isBlank_of_isWord (h.name_word c List.mem_cons_self)
    have hf := Text.not_isBlank_of_isWord (isWord_of_mem_func 'f' (by decide))
    have hdrop : line.dropWhile Text.isBlank = c :: more ++ (gap ++ '(' :: rest) := by
      rw [h.line_eq, List.dropWhile_append_of_pos h.lead_blank, List.cons_append,
        List.dropWhile_cons_of_neg (by simp [hc])]
    have hfunc : "func".toList = 'f' :: "unc".toList := rfl
    rw [← hdrop, hreceiver.line_eq, receiverHead, hfunc, List.cons_append, List.cons_append,
      List.dropWhile_cons_of_neg (by simp [hf])]
  have hlead : lead = [] := by
    have hlength := congrArg List.length (hnameLine.trans h.line_eq)
    simp only [List.length_append] at hlength
    exact List.eq_nil_of_length_eq_zero (by omega)
  refine ⟨hlead, ?_⟩
  have hname : line.takeWhile Text.isWord = name := by
    rw [← hnameLine, List.takeWhile_append_of_pos h.name_word, takeWhile_isWord_gap h.gap_blank,
      List.append_nil]
  have hfunc : line.takeWhile Text.isWord = "func".toList := by
    rw [hreceiver.line_eq, receiverHead, List.append_assoc,
      List.takeWhile_append_of_pos isWord_of_mem_func, List.append_assoc, List.cons_append,
      takeWhile_isWord_gap hreceiver.lead_blank, List.append_nil]
  exact hname.symm.trans hfunc

end Heading

/-! ## Lines -/

/-- A line that starts a signature is not blank. -/
theorem Line.isBlank_of_signature {line : Line} {reading : Reading}
    (h : Heading.signature.read? line.chars = some reading) : line.isBlank = false := by
  obtain ⟨lead, name, gap, rest, hparts⟩ := Heading.exists_signatureParts h
  rw [Line.isBlank, Line.trimmed, List.isEmpty_eq_false_iff]
  intro hnil
  have hhead := hparts.head?_trim
  rw [hnil, List.head?_nil, eq_comm, List.head?_eq_none_iff] at hhead
  exact hparts.name_ne_nil hhead

end Wayfinder
