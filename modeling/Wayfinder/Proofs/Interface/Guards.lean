import Wayfinder.Proofs.Probe

/-!
# The guards of the interface scanner are idle

The scanner guards itself in three places.  A signature that was reported before is not reported
again, a report does not end before it starts, and a draft does not reach beyond an interface
that closes.  The invariant of the scanner makes all three superfluous.

* `Document.Passes` are the states of the open interface that a scan passes through, also those
  in the middle of a line, and `Body.Orderly` is what holds in all of them.
* `Probe.asserting` reports and closes without the guards, and refuses where one of them would
  have changed something.
* `Document.started` lists the signatures that a scan starts.  `Scanner.starts` lists those that
  it has reported or still holds as a draft, and a line adds to that list exactly the signature
  that it starts (`Scanner.Sound.step_starts`).
* `Document.interfaces_guardsIdle` puts these together.
-/

namespace Wayfinder

/-! ## The states that a scan passes through -/

/-- The states of the open interface that a scan for interfaces passes through. -/
inductive Document.Passes (document : Document) (lookahead : Nat) : Body → Prop where
  /-- Between two lines. -/
  | between {before rest : List Line} {body : Body} (hlines : document.lines = before ++ rest)
      (hbody : (sweep (Scanner.step lookahead) .initial before).body = some body) :
      Passes document lookahead body
  /-- On a line that does not belong to the draft, when the draft has been reported. -/
  | released {before rest : List Line} {line : Line} {body next : Body} {draft : Draft}
      (hlines : document.lines = before ++ line :: rest) (hcode : line.isComment = false)
      (hbody : (sweep (Scanner.step lookahead) .initial before).body = some body)
      (hdraft : body.draft = some draft) (hresume : body.resume draft line = (next, false)) :
      Passes document lookahead next
  /-- On a line that has been read for signatures, before its curly brackets are counted. -/
  | scanned {before rest : List Line} {line : Line} {body : Body}
      (hlines : document.lines = before ++ line :: rest) (hcode : line.isComment = false)
      (hbody : (sweep (Scanner.step lookahead) .initial before).body = some body) :
      Passes document lookahead (body.readSignatures line)

namespace Body

/-- The curly brackets of an open interface are open.  Its draft has an open round bracket, or it
waits for its results with some budget left, behind a line on which it had started.  It starts
behind everything reported, and what has been seen is what has been reported. -/
structure Orderly (body : Body) : Prop where
  braces_pos : 0 < body.braces.level
  parens_pos : ∀ draft ∈ body.draft, draft.stage = .parameters ∨ draft.stage = .results →
    0 < draft.parens.level
  budget_pos : ∀ draft ∈ body.draft, ∀ closedAt budget, draft.stage = .between closedAt budget →
    0 < budget ∧ draft.line ≤ closedAt
  draft_behind : ∀ draft ∈ body.draft, ∀ method ∈ body.methods, method.endLine < draft.line
  mem_seen_iff : ∀ key, key ∈ body.seen ↔ ∃ method ∈ body.methods, method.key = key

variable {body : Body} {draft : Draft} {line : Line} {next endLine : Nat}

theorem Sound.orderly (h : body.Sound next) (hopen : 0 < body.braces.level) : body.Orderly where
  braces_pos := hopen
  parens_pos := by
    intro draft hdraft hstage
    have hwaiting := h.draft_waiting draft hdraft
    rw [Draft.Waiting] at hwaiting
    rcases hstage with hstage | hstage
    · rwa [hstage] at hwaiting
    · rwa [hstage] at hwaiting
  budget_pos := by
    intro draft hdraft closedAt budget hstage
    have hwaiting := h.draft_waiting draft hdraft
    have hline := h.draft_line_le draft hdraft
    rw [Draft.Waiting, hstage] at hwaiting
    rw [Draft.endLine, hstage] at hline
    exact ⟨hwaiting, hline⟩
  draft_behind := fun draft hdraft => (h.draft_ahead draft hdraft).reported_lt
  mem_seen_iff := by
    intro key
    rw [h.seen_eq, List.mem_map]

end Body

/-- The scanner is sound in front of every line of a text. -/
theorem Document.sound_before {text : String} {before rest : List Line}
    (hlines : (ofText text).lines = before ++ rest) (lookahead : Nat) :
    (sweep (Scanner.step lookahead) .initial before).Sound before.length := by
  have hascending := ofText_ascending text
  rw [hlines] at hascending
  refine (Scanner.initial_sound 0).sweep lookahead hascending.of_append_left
    (fun line _ => Nat.zero_le line.index) (Nat.zero_le _) fun line hline => ?_
  obtain ⟨front, back, rfl⟩ := List.append_of_mem hline
  have hsplit : (ofText text).lines = front ++ line :: (back ++ rest) := by
    rw [hlines, List.append_assoc, List.cons_append]
  rw [index_eq_length hsplit, List.length_append, List.length_cons]
  omega

theorem Document.Passes.orderly {text : String} {lookahead : Nat} {body : Body}
    (h : (ofText text).Passes lookahead body) : body.Orderly := by
  cases h with
  | between hlines hbody =>
    have hsound := sound_before hlines lookahead
    exact (hsound.body_sound body hbody).orderly (hsound.body_open body hbody)
  | released hlines hcode hbody hdraft hresume =>
    have hsound := sound_before hlines lookahead
    have hrecorded := (hsound.body_sound _ hbody).recorded_released hdraft hresume
    have hopen := hsound.body_open _ hbody
    obtain ⟨closedAt, _, _, rfl⟩ := Body.resume_released hresume
    refine (Body.Sound.of_draft_none hrecorded (Body.report_draft ..)).orderly ?_
    rw [Body.report_braces]
    exact hopen
  | scanned hlines hcode hbody =>
    have hsound := sound_before hlines lookahead
    have hindex := index_eq_length hlines
    refine ((hsound.body_sound _ hbody).readSignatures (Nat.le_of_eq hindex.symm)).orderly ?_
    rw [Body.readSignatures_braces]
    exact hsound.body_open _ hbody

/-! ## Assertions in the place of the guards -/

/-- A scan without guards that refuses where a guard would have changed something: to report what
was reported before, to report a signature that ends before it starts, and to close an interface
in front of the end of its draft. -/
def Probe.asserting : Probe Option :=
  { willing with
    report := fun body draft endLine =>
      if body.seen.contains (draft.line, draft.name) then none
      else if endLine < draft.line then none
      else some
        { body with
          methods := body.methods ++ [draft.signature body.name endLine]
          seen := body.seen ++ [(draft.line, draft.name)]
          draft := none }
    cut := fun draft endLine => if endLine < draft.endLine then none else some draft.endLine }

theorem Probe.asserting_faithful (limit : Nat) : asserting.Faithful limit where
  feed_eq := (willing_faithful limit).feed_eq
  report_eq := by
    intro body draft next endLine hrecorded hahead hle
    have hnew : ¬ body.seen.contains (draft.line, draft.name) = true := by
      rw [List.contains_iff_mem]
      exact hrecorded.not_mem_seen hahead
    show (if _ then _ else if _ then _ else _) = _
    rw [if_neg hnew, if_neg (Nat.not_lt.2 hle), hrecorded.report_eq hahead hle]
  cut_eq := by
    intro draft endLine hle
    show (if _ then _ else _) = _
    rw [if_neg (Nat.not_lt.2 hle), Nat.min_eq_left hle]

/-! ## What is started is reported -/

/-- Where a signature starts, and its name. -/
def Signature.start (signature : Signature) : Nat × Nat × String :=
  (signature.line, signature.column, signature.name)

/-- Where a signature that is being read starts, and its name. -/
def Draft.start (draft : Draft) : Nat × Nat × String :=
  (draft.line, draft.column, draft.name)

namespace Body

/-- The signature that an open interface starts on a line. -/
def started? (body : Body) (line : Line) : Option Draft :=
  match body.draft with
  | none => Draft.ofLine? line
  | some draft => if (body.resume draft line).2 then none else Draft.ofLine? line

/-- The starts of the signatures reported of an open interface, and then that of its draft. -/
def starts (body : Body) : List (Nat × Nat × String) :=
  body.methods.map Signature.start ++ body.draft.toList.map Draft.start

variable {body : Body} {draft : Draft} {line : Line} {next endLine : Nat}

theorem keep_starts (body : Body) (draft : Draft) :
    (body.keep draft).starts = body.methods.map Signature.start ++ [draft.start] := rfl

theorem Recorded.report_starts (h : body.Recorded next) (hahead : body.Ahead draft)
    (hle : draft.line ≤ endLine) :
    (body.report draft endLine).starts =
      body.methods.map Signature.start ++ [draft.start] := by
  rw [h.report_eq hahead hle, starts]
  simp only [List.map_append, Option.toList_none, List.map_nil, List.append_nil]
  rfl

theorem Recorded.await_starts (h : body.Recorded next) (hahead : body.Ahead draft)
    {closedAt : Nat} (hle : draft.line ≤ closedAt) (budget : Nat) :
    (body.await draft closedAt budget).starts =
      body.methods.map Signature.start ++ [draft.start] := by
  rw [await_eq]
  split
  · exact h.report_starts hahead hle
  · exact body.keep_starts _

theorem Recorded.afterParameters_starts (h : body.Recorded next) (hahead : body.Ahead draft)
    (hle : draft.line ≤ line.index) :
    (body.afterParameters draft line).starts =
      body.methods.map Signature.start ++ [draft.start] := by
  rw [afterParameters_eq]
  split_ifs
  · exact body.keep_starts draft
  · exact h.await_starts hahead hle body.lookahead
  · exact h.report_starts hahead hle

theorem Recorded.afterResults_starts (h : body.Recorded next) (hahead : body.Ahead draft)
    (hle : draft.line ≤ line.index) :
    (body.afterResults draft line).starts =
      body.methods.map Signature.start ++ [draft.start] := by
  rw [afterResults_eq]
  split
  · exact h.report_starts hahead hle
  · exact body.keep_starts _

/-- A line that is read into a draft starts nothing, and loses nothing. -/
theorem Sound.resume_starts (h : body.Sound next) (hnext : next ≤ line.index)
    (hdraft : body.draft = some draft) : (body.resume draft line).1.starts = body.starts := by
  have hahead := h.draft_ahead draft hdraft
  have hle := h.draft_line_le draft hdraft
  have hlt := h.draft_end_lt draft hdraft
  have hline : draft.line ≤ line.index := by omega
  have hstarts : body.starts = body.methods.map Signature.start ++ [draft.start] := by
    rw [starts, hdraft]
    rfl
  rw [hstarts, resume_eq]
  split
  · exact h.toRecorded.afterParameters_starts (hahead.moved ..) hline
  · exact h.toRecorded.afterResults_starts (hahead.moved ..) hline
  · rename_i closedAt budget hstage
    rw [Draft.endLine, hstage] at hle
    split_ifs
    · exact h.toRecorded.await_starts hahead hle (budget - 1)
    · exact h.toRecorded.afterResults_starts (hahead.moved ..) hline
    · exact h.toRecorded.report_starts hahead hle

/-- A line that starts a signature adds it. -/
theorem Recorded.begin_starts (h : body.Recorded next) (hnone : body.draft = none)
    (hnext : next ≤ line.index) :
    (body.begin line).starts = body.starts ++ (Draft.ofLine? line).toList.map Draft.start := by
  rw [begin_eq]
  split
  · rename_i draft hdraft
    obtain ⟨_, hline, _⟩ := reaches_of_ofLine? hdraft
    have hahead : body.Ahead draft := h.ahead_of_le (by omega)
    rw [h.afterParameters_starts hahead (Nat.le_of_eq hline), starts, hnone, hdraft]
    simp
  · rename_i hdraft
    simp [hdraft]

/-- A line adds the signature that it starts, and nothing else. -/
theorem Sound.readSignatures_starts (h : body.Sound next) (hnext : next ≤ line.index) :
    (body.readSignatures line).starts =
      body.starts ++ (body.started? line).toList.map Draft.start := by
  rw [Body.readSignatures_eq, started?]
  cases hdraft : body.draft with
  | none => exact h.toRecorded.begin_starts hdraft hnext
  | some draft =>
    have hresumed := h.resume_starts hnext hdraft
    cases hresume : body.resume draft line with
    | mk later consumed =>
      rw [hresume] at hresumed
      cases consumed with
      | true => simpa [hresume] using hresumed
      | false =>
        have hrecorded := h.recorded_released hdraft hresume
        obtain ⟨closedAt, _, _, rfl⟩ := resume_released hresume
        have hbegun := hrecorded.begin_starts (report_draft ..) hnext
        rw [hresumed] at hbegun
        simpa [hresume] using hbegun

/-- An interface closes with all signatures that it has started. -/
theorem Sound.close_starts (h : body.Sound next) (hnext : next ≤ endLine + 1) :
    (body.close endLine).methods.map Signature.start = body.starts := by
  rw [h.close_methods hnext, starts, List.map_append]
  cases body.draft <;> rfl

end Body

namespace Scanner

/-- The signature that a scanner starts on a line. -/
def started? (scanner : Scanner) (line : Line) : Option Draft :=
  if line.isComment then none else scanner.body.bind (·.started? line)

/-- The signatures that a scanner starts on some lines. -/
def started (lookahead : Nat) : Scanner → List Line → List Draft
  | _, [] => []
  | scanner, line :: more =>
      (scanner.started? line).toList ++ started lookahead (scanner.step lookahead line) more

/-- The starts of all signatures that a scanner has reported or holds as a draft. -/
def starts (scanner : Scanner) : List (Nat × Nat × String) :=
  scanner.found.flatMap (fun interface => interface.methods.map Signature.start) ++
    scanner.body.toList.flatMap Body.starts

variable {scanner : Scanner} {body : Body} {line : Line} {next : Nat}

theorem settle_starts (hsound : body.Sound (line.index + 1)) (scanner : Scanner) :
    (scanner.settle body line).starts =
      scanner.found.flatMap (fun interface => interface.methods.map Signature.start) ++
        body.starts := by
  rw [settle_eq]
  split
  · simp [starts, hsound.close_starts (Nat.le_refl _)]
  · simp [starts]

/-- A line adds the signature that it starts, and nothing else. -/
theorem Sound.step_starts (h : scanner.Sound next) (hnext : next ≤ line.index)
    (lookahead : Nat) :
    (scanner.step lookahead line).starts =
      scanner.starts ++ (scanner.started? line).toList.map Draft.start := by
  rw [Scanner.step_eq, started?]
  split
  · simp
  · cases hbody : scanner.body with
    | some body =>
      have hsound := h.body_sound body hbody
      have hread : (body.read line).starts = _ := hsound.readSignatures_starts hnext
      dsimp only
      rw [settle_starts (hsound.read hnext), hread]
      simp [starts, hbody]
    | none =>
      cases hopened : Body.ofLine? lookahead line with
      | none => simp
      | some body =>
        have hsound := (Body.sound_of_ofLine? hopened).1
        have hempty : body.starts = [] := by
          obtain ⟨reading, name, _, _, rfl⟩ := Body.ofLine?_eq_some_iff.1 hopened
          rfl
        dsimp only
        rw [settle_starts hsound, hempty]
        simp [starts, hbody]

/-- Ascending lines add the signatures that they start, in order. -/
theorem Sound.sweep_starts (lookahead : Nat) {lines : List Line} (hlines : Ascending lines)
    (h : scanner.Sound next) (hnext : ∀ line ∈ lines, next ≤ line.index) :
    (Wayfinder.sweep (Scanner.step lookahead) scanner lines).starts =
      scanner.starts ++ (started lookahead scanner lines).map Draft.start := by
  induction lines generalizing scanner next with
  | nil => exact (List.append_nil _).symm
  | cons line more ih =>
    have hfirst := hnext line List.mem_cons_self
    have hmore := ih hlines.of_cons (h.step hfirst lookahead)
      fun later hlater => List.rel_of_pairwise_cons hlines hlater
    show (Wayfinder.sweep _ (scanner.step lookahead line) more).starts = _
    rw [hmore, h.step_starts hfirst, started, List.map_append, List.append_assoc]

theorem Sound.finish_starts {size : Nat} (h : scanner.Sound size) :
    (scanner.finish size).flatMap (fun interface => interface.methods.map Signature.start) =
      scanner.starts := by
  rw [Scanner.finish_eq, starts]
  cases hbody : scanner.body with
  | none => simp
  | some body => simp [(h.body_sound body hbody).close_starts (by omega : size ≤ size - 1 + 1)]

end Scanner

namespace Document

/-- The signatures that the scan of a document starts. -/
def started (document : Document) (lookahead : Nat) : List Draft :=
  Scanner.started lookahead .initial document.lines

theorem starts_interfaces (text : String) (lookahead : Nat) :
    ((ofText text).interfaces lookahead).flatMap
        (fun interface => interface.methods.map Signature.start) =
      ((ofText text).started lookahead).map Draft.start := by
  have hsweep := (Scanner.initial_sound 0).sweep_starts lookahead (ofText_ascending text)
    fun line _ => Nat.zero_le line.index
  rw [interfaces, (sweep_sound text lookahead).finish_starts, hsweep]
  rfl

/-- The guards of the scanner are idle, in every text and with every lookahead.  Every state that
the scan passes through is orderly.  The scan without guards, which refuses where a guard would
have changed something, finds the same interfaces.  The signatures that are reported are those
that are started, in order and each of them once. -/
theorem interfaces_guardsIdle (text : String) (lookahead : Nat) :
    (∀ body, (ofText text).Passes lookahead body → body.Orderly) ∧
      Probe.asserting.interfaces (ofText text) lookahead =
        some ((ofText text).interfaces lookahead) ∧
      ((ofText text).interfaces lookahead).flatMap
          (fun interface => interface.methods.map Signature.start) =
        ((ofText text).started lookahead).map Draft.start ∧
      (((ofText text).interfaces lookahead).flatMap
        fun interface => interface.methods.map Signature.key).Nodup := by
  refine ⟨fun _ hpasses => hpasses.orderly, ?_, starts_interfaces text lookahead,
    (sweep_sound text lookahead).finish.keys_nodup⟩
  exact (Probe.asserting_faithful text.length).interfaces_eq lookahead (Nat.le_refl _)

/-- The line that starts the second signature completes the first one, which ended two lines
before. -/
example :
    let text := "type A interface \x7b\n\tF()\n\n\tG(a int,\n\tH())\n\x7d"
    ((ofText text).started 3).map Draft.start = [(1, 1, "F"), (3, 1, "G")] := by decide

end Document

end Wayfinder
