import Wayfinder.Receiver
import Wayfinder.Proofs.Balance
import Wayfinder.Proofs.Heading

/-!
# Where a method with a receiver ends

A declaration is looked at from its first line: the scanner counts the round and the
curly brackets behind the parenthesis that opens the parameters, and goes on through the
lines that follow.  This module says the same by counts over whole lines.

* `ReceiverMethod.among` lists the declarations of some lines by recursion on the lines;
  the methods of a document are those (`Document.receiverMethods_eq`).
* `ReceiverMethod.closing?` is the first of some code lines at which both kinds of
  brackets are closed, by the net counts over the lines up to it.
* `ReceiverMethod.endLineOf_eq` says that a declaration ends there, or on the last line.
  The heading opens one round bracket, which is what the scanner starts with
  (`Heading.ReceiverParts.parens_net`).
* A declaration that is closed is not changed by lines behind it
  (`ReceiverMethod.among_append`).
-/

namespace Wayfinder

/-- Whether a line is not a comment line. -/
def Line.isCode (line : Line) : Bool :=
  !line.isComment

/-! ## The brackets of a heading -/

namespace Bracket

theorem net_append (bracket : Bracket) (text more : List Char) :
    bracket.net (text ++ more) = bracket.net text + bracket.net more := by
  simp only [net, List.count_append, Int.natCast_add]
  omega

theorem net_cons (bracket : Bracket) (c : Char) (text : List Char) :
    bracket.net (c :: text) = bracket.net [c] + bracket.net text :=
  bracket.net_append [c] text

/-- A text without brackets has the net count zero. -/
theorem net_eq_zero {bracket : Bracket} {text : List Char} (hopening : bracket.opening ∉ text)
    (hclosing : bracket.closing ∉ text) : bracket.net text = 0 := by
  rw [net, List.count_eq_zero.2 hopening, List.count_eq_zero.2 hclosing]
  rfl

/-- The two kinds of brackets that are counted. -/
theorem net_eq_zero_of_isPlain {bracket : Bracket} (hkind : bracket = parens ∨ bracket = braces)
    {text : List Char} (hplain : ∀ c ∈ text, Heading.isPlain c = true) : bracket.net text = 0 := by
  have hopening : Heading.isPlain bracket.opening = false := by
    rcases hkind with rfl | rfl <;> decide +kernel
  have hclosing : Heading.isPlain bracket.closing = false := by
    rcases hkind with rfl | rfl <;> decide +kernel
  refine net_eq_zero (fun hmem => ?_) (fun hmem => ?_)
  · rw [hplain _ hmem] at hopening
    cases hopening
  · rw [hplain _ hmem] at hclosing
    cases hclosing

end Bracket

namespace Heading.ReceiverParts

variable {line lead inner middle name gap rest : List Char} {reading : Reading}

/-- Of the brackets of a heading only the last one counts, the one that opens the parameters. -/
theorem net_eq (h : ReceiverParts line reading lead inner middle name gap rest) {bracket : Bracket}
    (hkind : bracket = .parens ∨ bracket = .braces) :
    bracket.net line = bracket.net ['('] + bracket.net [')'] + bracket.net ['('] +
      bracket.net reading.rest := by
  have hfunc : bracket.net "func".toList = 0 :=
    Bracket.net_eq_zero_of_isPlain hkind fun c hc => isPlain_of_isWord (isWord_of_mem_func c hc)
  have hlead : bracket.net lead = 0 :=
    Bracket.net_eq_zero_of_isPlain hkind fun c hc => isPlain_of_isBlank (h.lead_blank c hc)
  have hinner : bracket.net inner = 0 := Bracket.net_eq_zero_of_isPlain hkind h.inner_plain
  have hmiddle : bracket.net middle = 0 :=
    Bracket.net_eq_zero_of_isPlain hkind fun c hc => isPlain_of_isBlank (h.middle_blank c hc)
  have hname : bracket.net name = 0 :=
    Bracket.net_eq_zero_of_isPlain hkind fun c hc => isPlain_of_isWord (h.name_word c hc)
  have hgap : bracket.net gap = 0 :=
    Bracket.net_eq_zero_of_isPlain hkind fun c hc => isPlain_of_isBlank (h.gap_blank c hc)
  rw [h.line_eq, h.rest_eq, receiverHead]
  simp only [Bracket.net_append, bracket.net_cons '(' (inner ++ _), bracket.net_cons ')' middle,
    bracket.net_cons '(' rest, hfunc, hlead, hinner, hmiddle, hname, hgap]
  omega

theorem parens_net (h : ReceiverParts line reading lead inner middle name gap rest) :
    Bracket.parens.net line = 1 + Bracket.parens.net reading.rest :=
  h.net_eq (Or.inl rfl)

theorem braces_net (h : ReceiverParts line reading lead inner middle name gap rest) :
    Bracket.braces.net line = 0 + Bracket.braces.net reading.rest :=
  h.net_eq (Or.inr rfl)

end Heading.ReceiverParts

namespace ReceiverMethod

/-! ## The plain scan, step by step -/

/-- The first of the following lines at which both depths balance, or the last of them. -/
def endFrom (parens braces : Depth) (last : Nat) (lines : List Line) : Nat :=
  Id.run (Counter.plain.endFrom parens braces last lines)

/-- The last line of a declaration, from the text behind the parenthesis that opens its
parameter list and from the lines that follow. -/
def endLineOf (start : Nat) (rest : List Char) (following : List Line) : Nat :=
  Id.run (Counter.plain.endLineOf start rest following)

/-- The declaration that starts on a line, if one does. -/
def ofLine? (line : Line) (following : List Line) : Option ReceiverMethod :=
  Id.run (Counter.plain.methodOfLine? line following)

theorem endFrom_cons (parens braces : Depth) (last : Nat) (line : Line) (more : List Line) :
    endFrom parens braces last (line :: more) =
      if line.isComment then endFrom parens braces line.index more
      else if (parens.feed line.chars).isBalanced && (braces.feed line.chars).isBalanced then
        line.index
      else endFrom (parens.feed line.chars) (braces.feed line.chars) line.index more := by
  rfl

theorem endLineOf_eq_ite (start : Nat) (rest : List Char) (following : List Line) :
    endLineOf start rest following =
      if ((Depth.ofCount .parens 1).feed rest).isBalanced && (Depth.ofBraces rest).isBalanced then
        start
      else endFrom ((Depth.ofCount .parens 1).feed rest) (Depth.ofBraces rest) start following := by
  rfl

theorem step_eq (document : Document) (found : List ReceiverMethod) (line : Line) :
    step document found line =
      if line.isComment then found
      else
        match ofLine? line (document.linesAfter line.index) with
        | some method => found ++ [method]
        | none => found := by
  rfl

/-- The declaration that starts on a line is the one that the heading makes. -/
theorem ofLine?_eq (line : Line) (following : List Line) :
    ofLine? line following =
      (Heading.receiver.read? line.chars).bind fun reading =>
        (reading.group? 2).bind fun type =>
          (reading.group? 3).map fun name =>
            { receiverType := type.text line.chars
              receiverName := ((reading.group? 1).map (·.text line.chars)).getD ""
              name := name.text line.chars
              column := Text.charColumn line.chars (name.byteStart line.chars)
              startLine := line.index
              endLine := endLineOf line.index reading.rest following } := by
  rw [ofLine?, Counter.methodOfLine?]
  cases Heading.receiver.read? line.chars with
  | none => rfl
  | some reading =>
    rw [Option.bind_some]
    dsimp only
    cases reading.group? 2 <;> cases reading.group? 3 <;> rfl

/-- A line starts a declaration if its heading matches, with the names that the heading
captures. -/
theorem ofLine?_eq_some_iff {line : Line} {following : List Line} {method : ReceiverMethod} :
    ofLine? line following = some method ↔
      ∃ reading type name, Heading.receiver.read? line.chars = some reading ∧
        reading.group? 2 = some type ∧ reading.group? 3 = some name ∧
        method =
          { receiverType := type.text line.chars
            receiverName := ((reading.group? 1).map (·.text line.chars)).getD ""
            name := name.text line.chars
            column := name.start
            startLine := line.index
            endLine := endLineOf line.index reading.rest following } := by
  cases hread : Heading.receiver.read? line.chars with
  | none => simp [ofLine?_eq, hread]
  | some reading =>
    obtain ⟨lead, inner, middle, text, gap, rest, hparts⟩ := Heading.exists_receiverParts hread
    obtain ⟨name, hname⟩ : ∃ name, reading.group? 3 = some name := ⟨_, hparts.name_group⟩
    simp [ofLine?_eq, hread, hname, hparts.charColumn_eq hname, Option.bind_eq_some_iff,
      @eq_comm _ method]

theorem ofLine?_eq_none_iff {line : Line} {following : List Line} :
    ofLine? line following = none ↔ Heading.receiver.read? line.chars = none := by
  cases hread : Heading.receiver.read? line.chars with
  | none => simp [ofLine?_eq, hread]
  | some reading =>
    obtain ⟨lead, inner, middle, name, gap, rest, hparts⟩ := Heading.exists_receiverParts hread
    obtain ⟨type, htype⟩ := hparts.exists_type
    simp [ofLine?_eq, hread, htype, hparts.name_group]

/-! ## The first line at which everything is closed -/

/-- Whether the round and the curly brackets of some lines are closed at one of them. -/
def isClosedAt (counting : Counting) (lines : List Line) (line : Line) : Bool :=
  let upTo := lines.filter fun other => other.index ≤ line.index
  counting.isClosed (Bracket.parens.netOver upTo) && counting.isClosed (Bracket.braces.netOver upTo)

/-- The first of some lines at which the round and the curly brackets opened since the first of
them are closed. -/
def closing? (counting : Counting) (lines : List Line) : Option Line :=
  lines.find? (isClosedAt counting lines)

variable {counting : Counting} {front lines following more : List Line} {line last : Line}

theorem isClosedAt_eq (h : Ascending (front ++ line :: more)) :
    isClosedAt counting (front ++ line :: more) line =
      (counting.isClosed (Bracket.parens.netOver (front ++ [line])) &&
        counting.isClosed (Bracket.braces.netOver (front ++ [line]))) := by
  simp only [isClosedAt, h.filter_le]

/-- All ways to count that are good enough for a text find the same lines closed. -/
theorem isClosedAt_of_fits {text : String} (hfits : counting.Fits text)
    (hlines : lines.Sublist (Document.ofText text).lines) (line : Line) :
    isClosedAt counting lines line = isClosedAt .word lines line := by
  have hupTo : (lines.filter fun other => other.index ≤ line.index).Sublist
      (Document.ofText text).lines := List.filter_sublist.trans hlines
  simp only [isClosedAt, hfits.isClosed_netOver hupTo]

/-- Lines behind some lines do not reach their counts. -/
theorem isClosedAt_append (h : Ascending (lines ++ more)) (hline : line ∈ lines) :
    isClosedAt counting (lines ++ more) line = isClosedAt counting lines line := by
  obtain ⟨before, after, rfl⟩ := List.append_of_mem hline
  have hshorter := @isClosedAt_eq counting _ _ _ h.of_append_left
  rw [List.append_assoc, List.cons_append] at h ⊢
  rw [isClosedAt_eq h, hshorter]

theorem closing?_append (h : Ascending (lines ++ more))
    (hclosing : closing? counting lines = some last) :
    closing? counting (lines ++ more) = some last := by
  obtain ⟨hclosed, before, after, rfl, hbefore⟩ := List.find?_eq_some_iff_append.1 hclosing
  have hsplit : before ++ last :: after ++ more = before ++ last :: (after ++ more) := by simp
  refine List.find?_eq_some_iff_append.2 ⟨?_, before, after ++ more, hsplit, fun line hline => ?_⟩
  · rw [isClosedAt_append h (by simp)]
    exact hclosed
  · rw [isClosedAt_append h (by simp [hline])]
    exact hbefore line hline

/-- Lines that are closed in the end are closed somewhere. -/
theorem exists_closing? (h : Ascending lines) (hne : lines ≠ [])
    (hparens : counting.isClosed (Bracket.parens.netOver lines) = true)
    (hbraces : counting.isClosed (Bracket.braces.netOver lines) = true) :
    ∃ last, closing? counting lines = some last := by
  obtain ⟨front, last, rfl⟩ := (List.eq_nil_or_concat' lines).resolve_left hne
  cases hclosing : closing? counting (front ++ [last]) with
  | some line => exact ⟨line, rfl⟩
  | none =>
    have hopen := List.find?_eq_none.1 hclosing last (by simp)
    rw [isClosedAt_eq h, hparens, hbraces] at hopen
    exact absurd rfl hopen

/-! ## The scanner ends there -/

/-- With both counts taken over the lines in front, the scanner finds the first line at which they
are closed, or ends with the last line. -/
theorem endFrom_eq (h : Ascending (front ++ lines)) (last : Nat) :
    endFrom (.ofCount .parens (Bracket.parens.netOver front))
        (.ofCount .braces (Bracket.braces.netOver front)) last lines =
      ((((lines.filter Line.isCode).find?
        (isClosedAt .word (front ++ lines.filter Line.isCode))).or lines.getLast?).map
          Line.index).getD last := by
  induction lines generalizing front last with
  | nil => rfl
  | cons line more ih =>
    have hlast : ∀ found : Option Line,
        ((found.or more.getLast?).map Line.index).getD line.index =
          ((found.or (line :: more).getLast?).map Line.index).getD last := by
      intro found
      rw [List.getLast?_cons]
      cases found <;> cases more.getLast? <;> rfl
    by_cases hcomment : line.isComment = true
    · have hmore : Ascending (front ++ more) :=
        h.sublist (List.Sublist.append_left (List.sublist_cons_self line more) front)
      rw [endFrom_cons, if_pos hcomment, ih hmore,
        List.filter_cons_of_neg (by simp [Line.isCode, hcomment]),
        hlast]
    · have hcode : line.isCode = true := by simpa [Line.isCode] using hcomment
      have hfiltered : Ascending (front ++ line :: more.filter Line.isCode) :=
        h.sublist (List.Sublist.append_left (List.filter_sublist.cons_cons line) front)
      have hparens : (Depth.ofCount .parens (Bracket.parens.netOver front)).feed line.chars =
          .ofCount .parens (Bracket.parens.netOver (front ++ [line])) := by
        rw [Depth.feed_parens]
        simp
      have hbraces : (Depth.ofCount .braces (Bracket.braces.netOver front)).feed line.chars =
          .ofCount .braces (Bracket.braces.netOver (front ++ [line])) := by
        rw [Depth.feed_braces]
        simp
      rw [← List.singleton_append, ← List.append_assoc] at h
      rw [endFrom_cons, if_neg hcomment, hparens, hbraces, Depth.isBalanced_ofCount,
        Depth.isBalanced_ofCount, ih h, List.filter_cons_of_pos hcode, List.find?_cons,
        isClosedAt_eq hfiltered, hlast, List.append_assoc, List.singleton_append]
      cases Counting.word.isClosed (Bracket.parens.netOver (front ++ [line])) &&
        Counting.word.isClosed (Bracket.braces.netOver (front ++ [line])) <;> rfl

/-- The scanner counts the first line of a declaration like any other line.  What it leaves out of
the heading has one open parenthesis, with which it starts. -/
theorem endLineOf_eq_endFrom {reading : Reading}
    (hread : Heading.receiver.read? line.chars = some reading) (hcode : line.isCode = true)
    (following : List Line) (last : Nat) :
    endLineOf line.index reading.rest following =
      endFrom (.ofCount .parens 0) (.ofCount .braces 0) last (line :: following) := by
  obtain ⟨lead, inner, middle, name, gap, rest, hparts⟩ := Heading.exists_receiverParts hread
  have hcomment : ¬ line.isComment = true := by simpa [Line.isCode] using hcode
  have hparens : (Depth.ofCount .parens 1).feed reading.rest =
      (Depth.ofCount .parens 0).feed line.chars := by
    rw [Depth.feed_parens, Depth.feed_parens, hparts.parens_net, Int.zero_add]
  have hbraces : Depth.ofBraces reading.rest = (Depth.ofCount .braces 0).feed line.chars := by
    rw [Depth.ofBraces, Depth.feed_braces, Depth.feed_braces, hparts.braces_net, Int.zero_add,
      Int.zero_add]
  rw [endLineOf_eq_ite, endFrom_cons, if_neg hcomment, hparens, hbraces]

/-- A declaration ends on the first code line at which its brackets are closed, counted over the
code lines from its first line on, or with the last line. -/
theorem endLineOf_eq {reading : Reading} (hread : Heading.receiver.read? line.chars = some reading)
    (hcode : line.isCode = true) (h : Ascending (line :: following)) :
    some (endLineOf line.index reading.rest following) =
      ((closing? .word ((line :: following).filter Line.isCode)).or
        (line :: following).getLast?).map Line.index := by
  have hend := @endFrom_eq [] (line :: following) h line.index
  rw [Bracket.netOver_nil, Bracket.netOver_nil, ← endLineOf_eq_endFrom hread hcode,
    List.nil_append] at hend
  rw [hend, closing?, List.getLast?_cons]
  cases List.find? _ _ <;> rfl

/-! ## Declarations among lines -/

/-- The declarations that start on some lines, when nothing follows them. -/
def among : List Line → List ReceiverMethod
  | [] => []
  | line :: more => (if line.isComment then none else ofLine? line more).toList ++ among more

/-- Only the line on which a declaration ends depends on the lines that follow. -/
theorem ofLine?_congr (h : ∀ reading, Heading.receiver.read? line.chars = some reading →
      endLineOf line.index reading.rest following = endLineOf line.index reading.rest more) :
    ofLine? line following = ofLine? line more := by
  rw [ofLine?_eq, ofLine?_eq]
  cases hread : Heading.receiver.read? line.chars with
  | none => rfl
  | some reading => simp only [Option.bind_some, h reading hread]

/-- A line starts a declaration exactly if its heading matches. -/
theorem exists_of_read? {reading : Reading}
    (hread : Heading.receiver.read? line.chars = some reading) (following : List Line) :
    ∃ method, ofLine? line following = some method ∧ method.startLine = line.index ∧
      method.endLine = endLineOf line.index reading.rest following := by
  obtain ⟨lead, inner, middle, name, gap, rest, hparts⟩ := Heading.exists_receiverParts hread
  obtain ⟨type, htype⟩ := hparts.exists_type
  exact ⟨_, ofLine?_eq_some_iff.2 ⟨reading, type, _, hread, htype, hparts.name_group, rfl⟩, rfl,
    rfl⟩

/-- A declaration that is closed does not depend on the lines behind. -/
theorem ofLine?_append (hcode : line.isCode = true) (h : Ascending (line :: following ++ more))
    (hclosed : ∀ reading, Heading.receiver.read? line.chars = some reading →
      ∃ last, closing? .word ((line :: following).filter Line.isCode) = some last) :
    ofLine? line (following ++ more) = ofLine? line following := by
  refine ofLine?_congr fun reading hread => Option.some.inj ?_
  obtain ⟨last, hclosing⟩ := hclosed reading hread
  have hwhole : Ascending (line :: (following ++ more)) := h
  have hcodes : Ascending ((line :: following).filter Line.isCode ++ more.filter Line.isCode) := by
    rw [← List.filter_append]
    exact h.filter Line.isCode
  rw [endLineOf_eq hread hcode hwhole, endLineOf_eq hread hcode h.of_append_left,
    ← List.cons_append, List.filter_append, closing?_append hcodes hclosing, hclosing]
  rfl

theorem mem_among_of_ofLine? {before : List Line} {method : ReceiverMethod}
    (hcode : line.isCode = true) (hline : ofLine? line more = some method) :
    method ∈ among (before ++ line :: more) := by
  have hcomment : ¬ line.isComment = true := by simpa [Line.isCode] using hcode
  induction before with
  | nil => simp [among, hcomment, hline]
  | cons other before ih => exact List.mem_append_right _ ih

/-- If the declarations of some lines are closed, lines behind them only add declarations. -/
theorem among_append (h : Ascending (lines ++ more))
    (hclosed : ∀ before line following reading, lines = before ++ line :: following →
      line.isCode = true → Heading.receiver.read? line.chars = some reading →
      ∃ last, closing? .word ((line :: following).filter Line.isCode) = some last) :
    among (lines ++ more) = among lines ++ among more := by
  induction lines with
  | nil => rfl
  | cons line following ih =>
    have hrest : among (following ++ more) = among following ++ among more := by
      refine ih h.tail fun before other behind reading hsplit => ?_
      exact hclosed (line :: before) other behind reading (by rw [hsplit]; rfl)
    have hline : (if line.isComment then none else ofLine? line (following ++ more)) =
        if line.isComment then none else ofLine? line following := by
      split
      · rfl
      · rename_i hcomment
        have hcode : line.isCode = true := by simpa [Line.isCode] using hcomment
        exact ofLine?_append hcode h fun reading hread =>
          hclosed [] line following reading rfl hcode hread
    rw [List.cons_append, among, among, hrest, hline, List.append_assoc]

/-- A declaration among lines starts on one of them that is no comment. -/
theorem exists_of_mem_among {method : ReceiverMethod} (h : method ∈ among lines) :
    ∃ before line more, lines = before ++ line :: more ∧ line.isComment = false ∧
      ofLine? line more = some method := by
  induction lines with
  | nil => cases h
  | cons line more ih =>
    rcases List.mem_append.1 h with hfirst | hmore
    · rw [Option.mem_toList] at hfirst
      split at hfirst
      · cases hfirst
      · rename_i hcomment
        exact ⟨[], line, more, rfl, by simpa using hcomment, hfirst⟩
    · obtain ⟨before, other, behind, rfl, hother⟩ := ih hmore
      exact ⟨line :: before, other, behind, rfl, hother⟩

/-- What a declaration takes from its heading. -/
theorem exists_parts_of_ofLine? {method : ReceiverMethod} (h : ofLine? line more = some method) :
    method.startLine = line.index ∧ ∃ reading lead inner middle name gap rest,
      Heading.receiver.read? line.chars = some reading ∧
      Heading.ReceiverParts line.chars reading lead inner middle name gap rest ∧
      method.name = String.ofList name ∧
      method.column = (Heading.receiverHead lead inner middle).length ∧
      method.endLine = endLineOf line.index reading.rest more := by
  obtain ⟨reading, type, span, hread, _, hspan, rfl⟩ := ofLine?_eq_some_iff.1 h
  obtain ⟨lead, inner, middle, name, gap, rest, hparts⟩ := Heading.exists_receiverParts hread
  obtain rfl := Option.some.inj (hspan.symm.trans hparts.name_group)
  refine ⟨rfl, reading, lead, inner, middle, name, gap, rest, hread, hparts, ?_, rfl, rfl⟩
  rw [hparts.line_eq]
  exact Span.text_append _ _ _

/-- A declaration does not end before it starts. -/
theorem startLine_le_endLine {method : ReceiverMethod} (h : Ascending (line :: more))
    (hcode : line.isCode = true) (hline : ofLine? line more = some method) :
    method.startLine ≤ method.endLine := by
  obtain ⟨hstart, reading, _, _, _, _, _, _, hread, _, _, _, hend⟩ := exists_parts_of_ofLine? hline
  have hsome := endLineOf_eq hread hcode h
  rw [← hend, eq_comm, Option.map_eq_some_iff] at hsome
  obtain ⟨last, hlast, hindex⟩ := hsome
  rw [hstart, ← hindex]
  rcases Option.or_eq_some_iff.1 hlast with hclosing | ⟨_, hfinal⟩
  · exact h.le_of_mem_cons (List.mem_of_mem_filter (List.mem_of_find?_eq_some hclosing))
  · exact h.le_of_mem_cons (List.mem_of_getLast? hfinal)

/-- The declarations among ascending lines start one behind the other. -/
theorem among_ascending (h : Ascending lines) :
    (among lines).Pairwise fun method later => method.startLine < later.startLine := by
  induction lines with
  | nil => exact List.Pairwise.nil
  | cons line more ih =>
    refine List.pairwise_append.2 ⟨?_, ih h.tail, ?_⟩
    · cases (if line.isComment then none else ofLine? line more) <;> simp
    · intro method hmethod later hlater
      obtain ⟨before, other, behind, rfl, _, hother⟩ := exists_of_mem_among hlater
      rw [Option.mem_toList] at hmethod
      split at hmethod
      · cases hmethod
      · rw [(exists_parts_of_ofLine? hmethod).1, (exists_parts_of_ofLine? hother).1]
        exact (List.pairwise_cons.1 h).1 other (by simp)

end ReceiverMethod

/-! ## The methods of a document -/

namespace Document

/-- The lines behind a line of a text are those that follow it. -/
theorem linesAfter_index {text : String} {before more : List Line} {line : Line}
    (hlines : (ofText text).lines = before ++ line :: more) :
    (ofText text).linesAfter line.index = more := by
  rw [linesAfter, index_eq_length hlines, hlines, ← List.singleton_append, ← List.append_assoc,
    List.drop_left' (by simp)]

/-- The methods with a receiver of a text are the declarations that start on its lines. -/
theorem receiverMethods_eq (text : String) :
    (ofText text).receiverMethods = ReceiverMethod.among (ofText text).lines := by
  have hsweep : ∀ before lines found, (ofText text).lines = before ++ lines →
      sweep (ReceiverMethod.step (ofText text)) found lines =
        found ++ ReceiverMethod.among lines := by
    intro before lines
    induction lines generalizing before with
    | nil => exact fun found _ => (List.append_nil found).symm
    | cons line more ih =>
      intro found hlines
      have hstep : ReceiverMethod.step (ofText text) found line =
          found ++ (if line.isComment then none else ReceiverMethod.ofLine? line more).toList := by
        rw [ReceiverMethod.step_eq, linesAfter_index hlines]
        split
        · exact (List.append_nil found).symm
        · cases ReceiverMethod.ofLine? line more with
          | none => exact (List.append_nil found).symm
          | some method => rfl
      have hmore : (ofText text).lines = before ++ [line] ++ more := by
        rw [hlines, List.append_assoc, List.singleton_append]
      calc sweep (ReceiverMethod.step (ofText text)) found (line :: more)
          = sweep (ReceiverMethod.step (ofText text))
              (ReceiverMethod.step (ofText text) found line) more := rfl
        _ = found ++ ReceiverMethod.among (line :: more) := by
          rw [hstep, ih (before ++ [line]) _ hmore, List.append_assoc, ReceiverMethod.among]
  exact hsweep [] (ofText text).lines [] rfl

/-- The methods with a receiver of a text start one behind the other. -/
theorem receiverMethods_ascending (text : String) :
    (ofText text).receiverMethods.Pairwise fun method later =>
      method.startLine < later.startLine := by
  rw [receiverMethods_eq]
  exact ReceiverMethod.among_ascending (ofText_ascending text)

end Document

end Wayfinder
