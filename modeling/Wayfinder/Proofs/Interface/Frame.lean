import Wayfinder.Proofs.Interface.Plain

/-!
# What an open interface keeps

A line read inside an interface changes its signatures and its curly brackets, and
nothing else.  The curly brackets are fed the line whatever becomes of its
signatures.

* `Body.SameHeading` relates two states of an interface that differ at most in its
  signatures and curly brackets; every step of reading a line stays inside it.
* `Body.readSignatures_withBraces` says that the curly brackets neither reach the
  signatures nor change with them.
* `Body.parens_of_mem_readSignatures` lists what the round brackets of a draft can be
  behind a line.
* `Body.run` reads several lines.
-/

namespace Wayfinder

namespace Body

/-! ## What a line does not change -/

/-- Two states of an interface that differ at most in its signatures and curly brackets. -/
structure SameHeading (body later : Body) : Prop where
  name_eq : later.name = body.name
  startLine_eq : later.startLine = body.startLine
  lookahead_eq : later.lookahead = body.lookahead

theorem SameHeading.trans {first second third : Body} (h : first.SameHeading second)
    (h' : second.SameHeading third) : first.SameHeading third :=
  ⟨h'.name_eq.trans h.name_eq, h'.startLine_eq.trans h.startLine_eq,
    h'.lookahead_eq.trans h.lookahead_eq⟩

theorem sameHeading_report (body : Body) (draft : Draft) (endLine : Nat) :
    body.SameHeading (body.report draft endLine) := by
  rw [report]
  split <;> exact ⟨rfl, rfl, rfl⟩

theorem sameHeading_keep (body : Body) (draft : Draft) : body.SameHeading (body.keep draft) :=
  ⟨rfl, rfl, rfl⟩

theorem sameHeading_await (body : Body) (draft : Draft) (closedAt budget : Nat) :
    body.SameHeading (body.await draft closedAt budget) := by
  rw [await_eq]
  split
  · exact body.sameHeading_report draft closedAt
  · exact body.sameHeading_keep _

theorem sameHeading_afterParameters (body : Body) (draft : Draft) (line : Line) :
    body.SameHeading (body.afterParameters draft line) := by
  rw [afterParameters_eq]
  split_ifs
  · exact body.sameHeading_keep draft
  · exact body.sameHeading_await draft line.index body.lookahead
  · exact body.sameHeading_report draft line.index

theorem sameHeading_afterResults (body : Body) (draft : Draft) (line : Line) :
    body.SameHeading (body.afterResults draft line) := by
  rw [afterResults_eq]
  split
  · exact body.sameHeading_report draft line.index
  · exact body.sameHeading_keep _

theorem sameHeading_resume (body : Body) (draft : Draft) (line : Line) :
    body.SameHeading (body.resume draft line).1 := by
  rw [resume_eq]
  split
  · exact body.sameHeading_afterParameters _ line
  · exact body.sameHeading_afterResults _ line
  · split_ifs
    · exact body.sameHeading_await draft _ _
    · exact body.sameHeading_afterResults _ line
    · exact body.sameHeading_report draft _

theorem sameHeading_begin (body : Body) (line : Line) : body.SameHeading (body.begin line) := by
  rw [begin_eq]
  split
  · exact body.sameHeading_afterParameters _ line
  · exact ⟨rfl, rfl, rfl⟩

/-- Reading a line for signatures keeps the heading. -/
theorem sameHeading_readSignatures (body : Body) (line : Line) :
    body.SameHeading (body.readSignatures line) := by
  rw [readSignatures_eq]
  split
  · exact body.sameHeading_begin line
  · rename_i draft _
    have hresume := body.sameHeading_resume draft line
    split
    · rename_i later heq
      rw [heq] at hresume
      exact hresume
    · rename_i later heq
      rw [heq] at hresume
      exact hresume.trans (later.sameHeading_begin line)

theorem read_name (body : Body) (line : Line) : (body.read line).name = body.name :=
  (body.sameHeading_readSignatures line).name_eq

theorem read_startLine (body : Body) (line : Line) :
    (body.read line).startLine = body.startLine :=
  (body.sameHeading_readSignatures line).startLine_eq

/-! ## Signatures do not look at curly brackets -/

/-- An interface with other curly brackets. -/
def withBraces (body : Body) (braces : Depth) : Body :=
  { body with braces := braces }

theorem report_withBraces (body : Body) (braces : Depth) (draft : Draft) (endLine : Nat) :
    (body.withBraces braces).report draft endLine =
      (body.report draft endLine).withBraces braces := by
  unfold report withBraces
  split <;> rfl

theorem await_withBraces (body : Body) (braces : Depth) (draft : Draft)
    (closedAt budget : Nat) :
    (body.withBraces braces).await draft closedAt budget =
      (body.await draft closedAt budget).withBraces braces := by
  rw [await_eq, await_eq, report_withBraces]
  split <;> rfl

theorem afterParameters_withBraces (body : Body) (braces : Depth) (draft : Draft)
    (line : Line) :
    (body.withBraces braces).afterParameters draft line =
      (body.afterParameters draft line).withBraces braces := by
  rw [afterParameters_eq, afterParameters_eq, report_withBraces, await_withBraces]
  split_ifs <;> rfl

theorem afterResults_withBraces (body : Body) (braces : Depth) (draft : Draft) (line : Line) :
    (body.withBraces braces).afterResults draft line =
      (body.afterResults draft line).withBraces braces := by
  rw [afterResults_eq, afterResults_eq, report_withBraces]
  split_ifs <;> rfl

theorem begin_withBraces (body : Body) (braces : Depth) (line : Line) :
    (body.withBraces braces).begin line = (body.begin line).withBraces braces := by
  rw [begin_eq, begin_eq]
  split
  · exact body.afterParameters_withBraces braces _ line
  · rfl

theorem resume_withBraces (body : Body) (braces : Depth) (draft : Draft) (line : Line) :
    (body.withBraces braces).resume draft line =
      ((body.resume draft line).1.withBraces braces, (body.resume draft line).2) := by
  simp only [resume_eq, afterParameters_withBraces, afterResults_withBraces, report_withBraces,
    await_withBraces]
  split
  · rfl
  · rfl
  · split_ifs <;> rfl

/-- Reading a line for signatures does not depend on the curly brackets. -/
theorem readSignatures_withBraces (body : Body) (braces : Depth) (line : Line) :
    (body.withBraces braces).readSignatures line =
      (body.readSignatures line).withBraces braces := by
  have hdraft : (body.withBraces braces).draft = body.draft := rfl
  rw [readSignatures_eq, readSignatures_eq, hdraft]
  split
  · exact body.begin_withBraces braces line
  · rename_i draft _
    rw [resume_withBraces]
    obtain ⟨next, consumed⟩ := body.resume draft line
    cases consumed
    · exact next.begin_withBraces braces line
    · rfl

theorem report_braces (body : Body) (draft : Draft) (endLine : Nat) :
    (body.report draft endLine).braces = body.braces := by
  rw [report]
  split <;> rfl

/-- Reading a line for signatures does not change the curly brackets. -/
theorem readSignatures_braces (body : Body) (line : Line) :
    (body.readSignatures line).braces = body.braces := by
  have hself : body.withBraces body.braces = body := rfl
  have hsame := body.readSignatures_withBraces body.braces line
  rw [hself] at hsame
  rw [hsame]
  rfl

/-- A line feeds the curly brackets of the interface, whatever signatures it holds. -/
theorem read_braces (body : Body) (line : Line) :
    (body.read line).braces = body.braces.feed line.chars := by
  rw [read_eq, readSignatures_braces]

/-! ## What a line does to the round brackets -/

theorem report_draft (body : Body) (draft : Draft) (endLine : Nat) :
    (body.report draft endLine).draft = none := by
  rw [report]
  split <;> rfl

theorem parens_of_mem_report {body : Body} {draft kept : Draft} {endLine : Nat}
    (h : kept ∈ (body.report draft endLine).draft) : kept.parens = draft.parens := by
  rw [report_draft] at h
  cases h

theorem parens_of_mem_await {body : Body} {draft kept : Draft} {closedAt budget : Nat}
    (h : kept ∈ (body.await draft closedAt budget).draft) : kept.parens = draft.parens := by
  rw [await_eq] at h
  split at h
  · exact parens_of_mem_report h
  · cases h
    rfl

theorem parens_of_mem_afterParameters {body : Body} {draft kept : Draft} {line : Line}
    (h : kept ∈ (body.afterParameters draft line).draft) : kept.parens = draft.parens := by
  rw [afterParameters_eq] at h
  split_ifs at h
  · cases h
    rfl
  · exact parens_of_mem_await h
  · exact parens_of_mem_report h

theorem parens_of_mem_afterResults {body : Body} {draft kept : Draft} {line : Line}
    (h : kept ∈ (body.afterResults draft line).draft) : kept.parens = draft.parens := by
  rw [afterResults_eq] at h
  split at h
  · exact parens_of_mem_report h
  · cases h
    rfl

/-- A signature that starts on a line counts the round brackets of that line. -/
theorem parens_of_mem_begin {body : Body} {kept : Draft} {line : Line} (hnone : body.draft = none)
    (h : kept ∈ (body.begin line).draft) : kept.parens = Depth.ofParens line.chars := by
  rw [begin_eq] at h
  split at h
  · rename_i draft hdraft
    obtain ⟨reading, name, _, _, rfl⟩ := Draft.ofLine?_eq_some_iff.1 hdraft
    exact parens_of_mem_afterParameters h
  · rw [hnone] at h
    cases h

/-- A line that does not belong to the draft completes it where its parameters closed. -/
theorem resume_released {body next : Body} {draft : Draft} {line : Line}
    (h : body.resume draft line = (next, false)) :
    ∃ closedAt budget, draft.stage = .between closedAt budget ∧
      next = body.report draft closedAt := by
  rw [resume_eq] at h
  split at h
  · cases h
  · cases h
  · rename_i closedAt budget hstage
    split_ifs at h
    · cases h
    · cases h
    · exact ⟨closedAt, budget, hstage, (congrArg Prod.fst h).symm⟩

theorem parens_of_mem_resume {body : Body} {draft kept : Draft} {line : Line}
    (h : kept ∈ (body.resume draft line).1.draft) :
    kept.parens = Depth.ofParens line.chars ∨ kept.parens = draft.parens ∨
      kept.parens = draft.parens.feed line.chars := by
  rw [resume_eq] at h
  split at h
  · exact Or.inr (Or.inr (parens_of_mem_afterParameters h))
  · exact Or.inr (Or.inr (parens_of_mem_afterResults h))
  · split_ifs at h
    · exact Or.inr (Or.inl (parens_of_mem_await h))
    · exact Or.inl (parens_of_mem_afterResults h)
    · exact Or.inr (Or.inl (parens_of_mem_report h))

/-- Behind a line, a draft counts the round brackets of that line alone, or on from an earlier
draft, or it has not counted them. -/
theorem parens_of_mem_readSignatures {body : Body} {kept : Draft} {line : Line}
    (h : kept ∈ (body.readSignatures line).draft) :
    kept.parens = Depth.ofParens line.chars ∨ ∃ draft ∈ body.draft,
      kept.parens = draft.parens ∨ kept.parens = draft.parens.feed line.chars := by
  rw [readSignatures_eq] at h
  split at h
  · rename_i hnone
    exact Or.inl (parens_of_mem_begin hnone h)
  · rename_i draft hdraft
    split at h
    · rename_i next heq
      have hresume : kept ∈ (body.resume draft line).1.draft := by rwa [heq]
      exact (parens_of_mem_resume hresume).imp_right fun hparens => ⟨draft, hdraft, hparens⟩
    · rename_i next heq
      obtain ⟨closedAt, _, _, rfl⟩ := resume_released heq
      exact Or.inl (parens_of_mem_begin (body.report_draft draft closedAt) h)

/-! ## Closing an interface -/

@[simp] theorem close_name (body : Body) (endLine : Nat) :
    (body.close endLine).name = body.name := by
  simp only [close_eq]
  split
  · exact (body.sameHeading_report _ _).name_eq
  · rfl

@[simp] theorem close_startLine (body : Body) (endLine : Nat) :
    (body.close endLine).startLine = body.startLine := by
  simp only [close_eq]
  split
  · exact (body.sameHeading_report _ _).startLine_eq
  · rfl

@[simp] theorem close_endLine (body : Body) (endLine : Nat) :
    (body.close endLine).endLine = endLine := by
  rw [close_eq]

/-! ## Reading several lines -/

/-- The interface after several lines of its body. -/
def run (body : Body) (lines : List Line) : Body :=
  lines.foldl Body.read body

@[simp] theorem run_nil (body : Body) : body.run [] = body := rfl

@[simp] theorem run_cons (body : Body) (line : Line) (lines : List Line) :
    body.run (line :: lines) = (body.read line).run lines := rfl

theorem run_name (body : Body) (lines : List Line) : (body.run lines).name = body.name := by
  induction lines generalizing body with
  | nil => rfl
  | cons line more ih => rw [run_cons, ih, read_name]

theorem run_startLine (body : Body) (lines : List Line) :
    (body.run lines).startLine = body.startLine := by
  induction lines generalizing body with
  | nil => rfl
  | cons line more ih => rw [run_cons, ih, read_startLine]

end Body

end Wayfinder
