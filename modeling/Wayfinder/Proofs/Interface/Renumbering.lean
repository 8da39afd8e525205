import Wayfinder.Proofs.Interface.Frame
import Mathlib.Order.MinMax

/-!
# Renumbered lines

A scan for interfaces uses the numbers of lines in three ways: it copies them, it
compares two of them, and it looks whether a number was reported before.  So it does not
matter which numbers the lines carry, as long as their order is the same.

* `renumber` replaces every line number in a line, in a report or in the state of the
  scanner.
* For a strictly increasing renumbering, each operation of the scanner commutes with it:
  the operations on a draft, the reading of a line (`Body.read_renumber`), a step
  (`Scanner.step_renumber`) and a sweep (`Scanner.sweep_renumber`).
* `Scanner.finish_renumber` is the end of a scan, where the number of the last line
  comes in.
-/

namespace Wayfinder

/-! ## Replacing line numbers -/

/-- A line with another number. -/
def Line.renumber (f : Nat → Nat) (line : Line) : Line :=
  { line with index := f line.index }

/-- A signature with other line numbers. -/
def Signature.renumber (f : Nat → Nat) (signature : Signature) : Signature :=
  { signature with line := f signature.line, endLine := f signature.endLine }

/-- An interface with other line numbers. -/
def Interface.renumber (f : Nat → Nat) (interface : Interface) : Interface :=
  { interface with
    startLine := f interface.startLine
    endLine := f interface.endLine
    methods := interface.methods.map (Signature.renumber f) }

/-- A stage with other line numbers. -/
def Stage.renumber (f : Nat → Nat) : Stage → Stage
  | .parameters => .parameters
  | .between closedAt budget => .between (f closedAt) budget
  | .results => .results

/-- A draft with other line numbers. -/
def Draft.renumber (f : Nat → Nat) (draft : Draft) : Draft :=
  { draft with
    line := f draft.line
    stage := draft.stage.renumber f
    lastLine := f draft.lastLine }

/-- An open interface with other line numbers. -/
def Body.renumber (f : Nat → Nat) (body : Body) : Body :=
  { body with
    startLine := f body.startLine
    methods := body.methods.map (Signature.renumber f)
    seen := body.seen.map fun key => (f key.1, key.2)
    draft := body.draft.map (Draft.renumber f) }

/-- The state of a scan with other line numbers. -/
def Scanner.renumber (f : Nat → Nat) (scanner : Scanner) : Scanner :=
  { found := scanner.found.map (Interface.renumber f)
    body := scanner.body.map (Body.renumber f) }

/-! ## Drafts -/

@[simp] theorem Line.chars_renumber (f : Nat → Nat) (line : Line) :
    (line.renumber f).chars = line.chars := rfl

@[simp] theorem Line.isComment_renumber (f : Nat → Nat) (line : Line) :
    (line.renumber f).isComment = line.isComment := rfl

@[simp] theorem Line.trimmed_renumber (f : Nat → Nat) (line : Line) :
    (line.renumber f).trimmed = line.trimmed := rfl

@[simp] theorem Line.isBlank_renumber (f : Nat → Nat) (line : Line) :
    (line.renumber f).isBlank = line.isBlank := rfl

@[simp] theorem Line.index_renumber (f : Nat → Nat) (line : Line) :
    (line.renumber f).index = f line.index := rfl

@[simp] theorem Draft.parens_renumber (f : Nat → Nat) (draft : Draft) :
    (draft.renumber f).parens = draft.parens := rfl

@[simp] theorem Body.braces_renumber (f : Nat → Nat) (body : Body) :
    (body.renumber f).braces = body.braces := rfl

theorem Draft.endLine_renumber (f : Nat → Nat) (draft : Draft) :
    (draft.renumber f).endLine = f draft.endLine := by
  obtain ⟨name, line, column, parens, stage, lastLine⟩ := draft
  cases stage <;> rfl

theorem Draft.ofLine?_renumber (f : Nat → Nat) (line : Line) :
    Draft.ofLine? (line.renumber f) = (Draft.ofLine? line).map (Draft.renumber f) := by
  rw [Draft.ofLine?_eq, Draft.ofLine?_eq, Line.chars_renumber, Option.map_map]
  rfl

namespace Body

variable {f : Nat → Nat}

/-- A key was reported before exactly if it was so under the other numbers. -/
theorem mem_seen_renumber (hf : StrictMono f) (body : Body) (line : Nat) (name : String) :
    (f line, name) ∈ (body.renumber f).seen ↔ (line, name) ∈ body.seen := by
  simp only [renumber, List.mem_map]
  constructor
  · rintro ⟨key, hkey, heq⟩
    obtain ⟨hline, hname⟩ := Prod.mk.inj heq
    have hsame : key = (line, name) := Prod.ext (hf.injective hline) hname
    exact hsame ▸ hkey
  · intro hmem
    exact ⟨(line, name), hmem, rfl⟩

theorem report_renumber (hf : StrictMono f) (body : Body) (draft : Draft) (endLine : Nat) :
    (body.renumber f).report (draft.renumber f) (f endLine) =
      (body.report draft endLine).renumber f := by
  have hseen : ((draft.renumber f).line, (draft.renumber f).name) ∈ (body.renumber f).seen ↔
      (draft.line, draft.name) ∈ body.seen := body.mem_seen_renumber hf draft.line draft.name
  have hmax : max (f endLine) (f draft.line) = f (max endLine draft.line) :=
    (hf.monotone.map_max).symm
  by_cases hmem : (draft.line, draft.name) ∈ body.seen
  · rw [report, report, if_pos hmem, if_pos (hseen.2 hmem)]
    rfl
  · rw [report, report, if_neg hmem, if_neg (fun h => hmem (hseen.1 h))]
    simp only [renumber, List.map_append, List.map_cons, List.map_nil, Option.map_none]
    simp only [Draft.renumber, Signature.renumber, hmax]

theorem await_renumber (hf : StrictMono f) (body : Body) (draft : Draft)
    (closedAt budget : Nat) :
    (body.renumber f).await (draft.renumber f) (f closedAt) budget =
      (body.await draft closedAt budget).renumber f := by
  rw [await_eq, await_eq, report_renumber hf]
  split <;> rfl

theorem afterParameters_renumber (hf : StrictMono f) (body : Body) (draft : Draft)
    (line : Line) :
    (body.renumber f).afterParameters (draft.renumber f) (line.renumber f) =
      (body.afterParameters draft line).renumber f := by
  have hawait := body.await_renumber hf draft line.index body.lookahead
  have hreport := body.report_renumber hf draft line.index
  rw [afterParameters_eq, afterParameters_eq, Draft.parens_renumber, Line.chars_renumber]
  split_ifs
  · rfl
  · exact hawait
  · exact hreport

theorem afterResults_renumber (hf : StrictMono f) (body : Body) (draft : Draft) (line : Line) :
    (body.renumber f).afterResults (draft.renumber f) (line.renumber f) =
      (body.afterResults draft line).renumber f := by
  have hreport := body.report_renumber hf draft line.index
  rw [afterResults_eq, afterResults_eq, Draft.parens_renumber]
  split_ifs
  · exact hreport
  · rfl

/-! ## Reading a line -/

theorem begin_renumber (hf : StrictMono f) (body : Body) (line : Line) :
    (body.renumber f).begin (line.renumber f) = (body.begin line).renumber f := by
  rw [begin_eq, begin_eq, Draft.ofLine?_renumber]
  cases Draft.ofLine? line with
  | none => rfl
  | some draft => exact body.afterParameters_renumber hf draft line

theorem resume_renumber (hf : StrictMono f) (body : Body) (draft : Draft) (line : Line) :
    (body.renumber f).resume (draft.renumber f) (line.renumber f) =
      ((body.resume draft line).1.renumber f, (body.resume draft line).2) := by
  have hparameters := body.afterParameters_renumber hf
    { draft with parens := draft.parens.feed line.chars, lastLine := line.index } line
  have hresults := body.afterResults_renumber hf
    { draft with parens := draft.parens.feed line.chars, lastLine := line.index } line
  have hwrapped := body.afterResults_renumber hf
    { draft with parens := Depth.ofParens line.chars, lastLine := line.index } line
  have hawait := body.await_renumber hf draft
  have hreport := body.report_renumber hf draft
  obtain ⟨name, start, column, parens, stage, lastLine⟩ := draft
  cases stage with
  | parameters => exact congrArg (·, true) hparameters
  | results => exact congrArg (·, true) hresults
  | between closedAt budget =>
    simp only [resume_eq, Draft.renumber, Stage.renumber]
    rw [Line.isBlank_renumber, Line.trimmed_renumber]
    split_ifs
    · exact congrArg (·, true) (hawait closedAt (budget - 1))
    · exact congrArg (·, true) hwrapped
    · exact congrArg (·, false) (hreport closedAt)

theorem readSignatures_renumber (hf : StrictMono f) (body : Body) (line : Line) :
    (body.renumber f).readSignatures (line.renumber f) =
      (body.readSignatures line).renumber f := by
  have hdraft : (body.renumber f).draft = body.draft.map (Draft.renumber f) := rfl
  rw [readSignatures_eq, readSignatures_eq, hdraft]
  cases body.draft with
  | none => exact body.begin_renumber hf line
  | some draft =>
    simp only [Option.map_some]
    rw [body.resume_renumber hf]
    obtain ⟨next, taken⟩ := body.resume draft line
    cases taken
    · exact next.begin_renumber hf line
    · rfl

/-- Reading a line commutes with a strictly increasing renumbering. -/
theorem read_renumber (hf : StrictMono f) (body : Body) (line : Line) :
    (body.renumber f).read (line.renumber f) = (body.read line).renumber f := by
  simp only [read_eq, readSignatures_renumber hf]
  rfl

/-! ## Opening and closing an interface -/

theorem close_renumber (hf : StrictMono f) (body : Body) (endLine : Nat) :
    (body.renumber f).close (f endLine) = (body.close endLine).renumber f := by
  have hdraft : (body.renumber f).draft = body.draft.map (Draft.renumber f) := rfl
  simp only [close_eq, hdraft]
  cases body.draft with
  | none => rfl
  | some draft =>
    have hmin : min (draft.renumber f).endLine (f endLine) = f (min draft.endLine endLine) := by
      rw [Draft.endLine_renumber, hf.monotone.map_min]
    simp only [Option.map_some, hmin, report_renumber hf]
    rfl

theorem ofLine?_renumber (f : Nat → Nat) (lookahead : Nat) (line : Line) :
    ofLine? lookahead (line.renumber f) = (ofLine? lookahead line).map (renumber f) := by
  rw [ofLine?_eq, ofLine?_eq, Line.chars_renumber, Option.map_map]
  rfl

end Body

/-! ## The sweep -/

namespace Scanner

variable {f : Nat → Nat}

theorem settle_renumber (hf : StrictMono f) (scanner : Scanner) (body : Body) (line : Line) :
    (scanner.renumber f).settle (body.renumber f) (line.renumber f) =
      (scanner.settle body line).renumber f := by
  have hclose := body.close_renumber hf line.index
  rw [settle_eq, settle_eq, Body.braces_renumber]
  split_ifs
  · simp only [renumber, List.map_append, List.map_cons, List.map_nil, Option.map_none, ← hclose]
    rfl
  · rfl

/-- A step commutes with a strictly increasing renumbering. -/
theorem step_renumber (hf : StrictMono f) (lookahead : Nat) (scanner : Scanner) (line : Line) :
    step lookahead (scanner.renumber f) (line.renumber f) =
      (step lookahead scanner line).renumber f := by
  have hbody : (scanner.renumber f).body = scanner.body.map (Body.renumber f) := rfl
  rw [step_eq, step_eq, hbody, Line.isComment_renumber]
  split
  · rfl
  · cases scanner.body with
    | some body =>
      simp only [Option.map_some, Body.read_renumber hf]
      exact scanner.settle_renumber hf (body.read line) line
    | none =>
      simp only [Option.map_none, Body.ofLine?_renumber]
      cases Body.ofLine? lookahead line with
      | none => rfl
      | some body => exact scanner.settle_renumber hf body line

/-- A sweep commutes with a strictly increasing renumbering. -/
theorem sweep_renumber (hf : StrictMono f) (lookahead : Nat) (scanner : Scanner)
    (lines : List Line) :
    sweep (step lookahead) (scanner.renumber f) (lines.map (Line.renumber f)) =
      (sweep (step lookahead) scanner lines).renumber f := by
  induction lines generalizing scanner with
  | nil => rfl
  | cons line more ih =>
    have hstep := scanner.step_renumber hf lookahead line
    calc sweep (step lookahead) (scanner.renumber f) ((line :: more).map (Line.renumber f))
        = sweep (step lookahead) ((step lookahead scanner line).renumber f)
            (more.map (Line.renumber f)) := by rw [← hstep]; rfl
      _ = (sweep (step lookahead) scanner (line :: more)).renumber f := ih _

/-- The end of a scan commutes with a renumbering that also moves the last line of the document,
if an interface is open there. -/
theorem finish_renumber (hf : StrictMono f) (scanner : Scanner) {size size' : Nat}
    (hsize : scanner.body.isSome = true → size' - 1 = f (size - 1)) :
    (scanner.renumber f).finish size' = (scanner.finish size).map (Interface.renumber f) := by
  have hbody : (scanner.renumber f).body = scanner.body.map (Body.renumber f) := rfl
  rw [finish_eq, finish_eq, hbody]
  cases hopen : scanner.body with
  | none => rfl
  | some body =>
    have hlast : size' - 1 = f (size - 1) := hsize (by rw [hopen]; rfl)
    simp only [Option.map_some, hlast, Body.close_renumber hf, List.map_append, List.map_cons,
      List.map_nil]
    rfl

end Scanner

end Wayfinder
