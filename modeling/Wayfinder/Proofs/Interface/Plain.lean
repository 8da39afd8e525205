import Wayfinder.Interface.Scan
import Wayfinder.Proofs.Balance
import Wayfinder.Proofs.Heading

/-!
# The plain scan, step by step

The scan for interfaces is written over operations that are handed in, and may have an
effect.  The program hands in `Probe.plain`, which has none.  This module names the steps of
that scan and gives each of them an equation in which no effect is left.

* `Body.await` to `Body.close`, `Draft.ofLine?`, `Body.ofLine?` and `Scanner.settle` are the
  steps, and `Body.await_eq` to `Scanner.finish_eq` their equations.
* `Draft.ofLine?_eq_some_iff` and `Body.ofLine?_eq_some_iff`: a line starts a signature, or
  opens an interface, exactly if its heading matches.  The column of a signature is found
  by way of bytes, and is the one at which the heading captures the name.
-/

namespace Wayfinder

/-! ## The steps of an open interface -/

/-- The signature that starts on a line, if one does. -/
def Draft.ofLine? (line : Line) : Option Draft :=
  Id.run (Probe.plain.draftOfLine? line)

namespace Body

variable (body : Body) (draft : Draft) (line : Line)

/-- Waits for a result list, or reports the signature if no budget is left. -/
def await (closedAt budget : Nat) : Body :=
  Id.run (Probe.plain.await body draft closedAt budget)

/-- Goes on after a line up to which the parameters have been read. -/
def afterParameters : Body :=
  Id.run (Probe.plain.afterParameters body draft line)

/-- Goes on after a line up to which the results have been read. -/
def afterResults : Body :=
  Id.run (Probe.plain.afterResults body draft line)

/-- Reads a line into the signature, and tells whether the line belonged to it. -/
def resume : Body × Bool :=
  Id.run (Probe.plain.resume body draft line)

/-- Starts a signature on a line, if the line holds the start of one. -/
def begin : Body :=
  Id.run (Probe.plain.begin body line)

/-- Reads a line for signatures. -/
def readSignatures : Body :=
  Id.run (Probe.plain.readSignatures body line)

/-- Reads one line of the body. -/
def read : Body :=
  Id.run (Probe.plain.read body line)

/-- Closes the interface. -/
def close (endLine : Nat) : Interface :=
  Id.run (Probe.plain.close body endLine)

/-- The interface that a line opens, if it opens one. -/
def ofLine? (lookahead : Nat) (line : Line) : Option Body :=
  Id.run (Probe.plain.bodyOfLine? lookahead line)

theorem await_eq (closedAt budget : Nat) :
    body.await draft closedAt budget =
      if budget = 0 then body.report draft closedAt
      else body.keep { draft with stage := .between closedAt budget } := by
  rfl

theorem afterParameters_eq :
    body.afterParameters draft line =
      if !draft.parens.isBalanced then body.keep draft
      else if (tailAfterLastParen line.chars).isEmpty then
        body.await draft line.index body.lookahead
      else body.report draft line.index := by
  rfl

theorem afterResults_eq :
    body.afterResults draft line =
      if draft.parens.isBalanced then body.report draft line.index
      else body.keep { draft with stage := .results } := by
  rfl

theorem resume_eq :
    body.resume draft line =
      match draft.stage with
      | .parameters =>
          (body.afterParameters
            { draft with parens := draft.parens.feed line.chars, lastLine := line.index } line,
            true)
      | .results =>
          (body.afterResults
            { draft with parens := draft.parens.feed line.chars, lastLine := line.index } line,
            true)
      | .between closedAt budget =>
          if line.isBlank then (body.await draft closedAt (budget - 1), true)
          else if line.trimmed.head? = some '(' then
            (body.afterResults
              { draft with parens := Depth.ofParens line.chars, lastLine := line.index } line,
              true)
          else (body.report draft closedAt, false) := by
  rfl

theorem begin_eq :
    body.begin line =
      match Draft.ofLine? line with
      | some draft => body.afterParameters draft line
      | none => body := by
  rfl

theorem readSignatures_eq :
    body.readSignatures line =
      match body.draft with
      | none => body.begin line
      | some draft =>
          match body.resume draft line with
          | (next, true) => next
          | (next, false) => next.begin line := by
  rfl

theorem read_eq :
    body.read line =
      { body.readSignatures line with
        braces := (body.readSignatures line).braces.feed line.chars } := by
  rfl

theorem close_eq (endLine : Nat) :
    body.close endLine =
      let last :=
        match body.draft with
        | some draft => body.report draft (min draft.endLine endLine)
        | none => body
      { name := last.name, startLine := last.startLine, endLine := endLine,
        methods := last.methods } := by
  rw [close, Probe.close]
  cases body.draft <;> rfl

end Body

/-! ## The steps of the scanner -/

namespace Scanner

/-- Closes an interface behind a line if its curly brackets balance, and keeps it otherwise. -/
def settle (scanner : Scanner) (body : Body) (line : Line) : Scanner :=
  Id.run (Probe.plain.settle scanner body line)

theorem settle_eq (scanner : Scanner) (body : Body) (line : Line) :
    scanner.settle body line =
      if body.braces.isBalanced then
        { found := scanner.found ++ [body.close line.index], body := none }
      else { scanner with body := some body } := by
  rfl

theorem step_eq (lookahead : Nat) (scanner : Scanner) (line : Line) :
    scanner.step lookahead line =
      if line.isComment then scanner
      else
        match scanner.body with
        | some body => scanner.settle (body.read line) line
        | none =>
            match Body.ofLine? lookahead line with
            | some body => scanner.settle body line
            | none => scanner := by
  rfl

theorem finish_eq (scanner : Scanner) (size : Nat) :
    scanner.finish size =
      match scanner.body with
      | some body => scanner.found ++ [body.close (size - 1)]
      | none => scanner.found := by
  rfl

end Scanner

/-! ## Opening an interface and starting a signature -/

/-- The signature that starts on a line is the one that the heading makes. -/
theorem Draft.ofLine?_eq (line : Line) :
    Draft.ofLine? line =
      ((Heading.signature.read? line.chars).bind (·.group? 1)).map fun name =>
        { name := name.text line.chars, line := line.index,
          column := Text.charColumn line.chars (name.byteStart line.chars),
          parens := Depth.ofParens line.chars, stage := .parameters, lastLine := line.index } := by
  rw [ofLine?, Probe.draftOfLine?]
  cases (Heading.signature.read? line.chars).bind (·.group? 1) <;> rfl

/-- A line starts a signature if its heading matches, with the name that the heading captures. -/
theorem Draft.ofLine?_eq_some_iff {line : Line} {draft : Draft} :
    Draft.ofLine? line = some draft ↔
      ∃ reading name, Heading.signature.read? line.chars = some reading ∧
        reading.group? 1 = some name ∧
        draft = { name := name.text line.chars, line := line.index, column := name.start,
                  parens := Depth.ofParens line.chars, stage := .parameters,
                  lastLine := line.index } := by
  cases hread : Heading.signature.read? line.chars with
  | none => simp [Draft.ofLine?_eq, hread]
  | some reading =>
    obtain ⟨lead, text, gap, rest, hparts⟩ := Heading.exists_signatureParts hread
    obtain ⟨name, hname⟩ : ∃ name, reading.group? 1 = some name := ⟨_, hparts.group_eq⟩
    simp [Draft.ofLine?_eq, hread, hname, hparts.charColumn_eq hname, @eq_comm _ draft]

theorem Draft.ofLine?_eq_none_iff {line : Line} :
    Draft.ofLine? line = none ↔ Heading.signature.read? line.chars = none := by
  cases hread : Heading.signature.read? line.chars with
  | none => simp [Draft.ofLine?_eq, hread]
  | some reading =>
    obtain ⟨lead, name, gap, rest, hparts⟩ := Heading.exists_signatureParts hread
    simp [Draft.ofLine?_eq, hread, hparts.group_eq]

/-- A line starts no signature if its first character that is not blank is in no word. -/
theorem Draft.ofLine?_of_head? {line : Line} {c : Char} (hhead : line.trimmed.head? = some c)
    (hc : Text.isWord c = false) : Draft.ofLine? line = none := by
  rw [Draft.ofLine?_eq_none_iff]
  cases hread : Heading.signature.read? line.chars with
  | none => rfl
  | some reading =>
    obtain ⟨lead, name, gap, rest, hparts⟩ := Heading.exists_signatureParts hread
    rw [Line.trimmed, hparts.head?_trim] at hhead
    rw [hparts.name_word c (List.mem_of_head? hhead)] at hc
    cases hc

namespace Body

/-- The interface that a line opens is the one that the heading makes. -/
theorem ofLine?_eq (lookahead : Nat) (line : Line) :
    ofLine? lookahead line =
      ((Heading.interface.read? line.chars).bind (·.group? 1)).map fun name =>
        { name := name.text line.chars, startLine := line.index,
          braces := Depth.ofBraces line.chars, lookahead := lookahead, methods := [], seen := [],
          draft := none } := by
  rw [ofLine?, Probe.bodyOfLine?]
  cases (Heading.interface.read? line.chars).bind (·.group? 1) <;> rfl

/-- A line opens an interface if its heading matches, with the name that the heading captures. -/
theorem ofLine?_eq_some_iff {lookahead : Nat} {line : Line} {body : Body} :
    ofLine? lookahead line = some body ↔
      ∃ reading name, Heading.interface.read? line.chars = some reading ∧
        reading.group? 1 = some name ∧
        body = { name := name.text line.chars, startLine := line.index,
                 braces := Depth.ofBraces line.chars, lookahead := lookahead, methods := [],
                 seen := [], draft := none } := by
  simp [ofLine?_eq, Option.bind_eq_some_iff, @eq_comm _ body]

theorem ofLine?_eq_none_iff {lookahead : Nat} {line : Line} :
    ofLine? lookahead line = none ↔ Heading.interface.read? line.chars = none := by
  cases hread : Heading.interface.read? line.chars with
  | none => simp [ofLine?_eq, hread]
  | some reading =>
    obtain ⟨name, hname⟩ := Heading.exists_group_of_interface hread
    simp [ofLine?_eq, hread, hname]

end Body

end Wayfinder
