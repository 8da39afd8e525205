import Wayfinder.Proofs.Interface.Frame
import Mathlib.Data.List.Nodup

/-!
# The invariant of the interface scanner

The scanner reports a signature late: the signature may have ended several lines
before the line that completes it, and one that is never completed is reported when
its interface closes.  What keeps the reports in order is an invariant of the
scanner's state, stated against `next`, a bound above every line read so far.

* `Body.Recorded` is about the signatures reported so far: they lie inside the open
  interface and below `next`, each ends in front of the one after it, and `seen` is
  the list of their keys.
* `Body.Sound` adds the draft.  It starts behind everything reported, it would end
  below `next`, and it waits for something: a closing bracket or a result list.
* `Scanner.Sound` adds the interfaces closed so far.

`Scanner.Sound.step` is the step lemma and `Scanner.Sound.sweep` the run lemma.
`Scanner.Sound.finish` reads the order of a finished scan, `InSourceOrder`, off the
invariant.
-/

namespace Wayfinder

/-! ## The order of what is reported -/

/-- A signature ends in front of another. -/
def Signature.Before (signature later : Signature) : Prop :=
  signature.endLine < later.line

/-- The line and the name of a signature. -/
def Signature.key (signature : Signature) : Nat × String :=
  (signature.line, signature.name)

/-- An interface ends in front of another. -/
def Interface.Before (interface later : Interface) : Prop :=
  interface.endLine < later.startLine

/-- The lines of an interface are in order, and its signatures lie inside it, belong to it, and
each ends in front of the next. -/
structure Interface.WellFormed (interface : Interface) : Prop where
  start_le_end : interface.startLine ≤ interface.endLine
  owner_eq : ∀ method ∈ interface.methods, method.owner = interface.name
  inside : ∀ method ∈ interface.methods,
    interface.startLine < method.line ∧ method.line ≤ method.endLine ∧
      method.endLine ≤ interface.endLine
  ordered : interface.methods.Pairwise Signature.Before

/-- The interfaces of a document of a given size lie inside it, each of them is well formed and
ends in front of the next, and no line and name is reported twice. -/
structure InSourceOrder (size : Nat) (interfaces : List Interface) : Prop where
  each : ∀ interface ∈ interfaces, interface.WellFormed
  inside : ∀ interface ∈ interfaces, interface.endLine < size
  ordered : interfaces.Pairwise Interface.Before
  keys_nodup : (interfaces.flatMap fun interface =>
    interface.methods.map Signature.key).Nodup

/-! ## The invariant of an open interface -/

/-- A draft waits for a bracket that closes, or for a result list. -/
def Draft.Waiting (draft : Draft) : Prop :=
  match draft.stage with
  | .parameters => 0 < draft.parens.level
  | .between _ budget => 0 < budget
  | .results => 0 < draft.parens.level

/-- The signature that a draft becomes if it ends on the given line. -/
def Draft.signature (draft : Draft) (owner : String) (endLine : Nat) : Signature :=
  { owner := owner, name := draft.name, line := draft.line, column := draft.column,
    endLine := endLine }

namespace Body

/-- What is reported of an open interface is in order and below `next`. -/
structure Recorded (body : Body) (next : Nat) : Prop where
  start_lt : body.startLine < next
  owner_eq : ∀ method ∈ body.methods, method.owner = body.name
  inside : ∀ method ∈ body.methods,
    body.startLine < method.line ∧ method.line ≤ method.endLine ∧ method.endLine < next
  ordered : body.methods.Pairwise Signature.Before
  seen_eq : body.seen = body.methods.map Signature.key

/-- A draft starts inside an open interface, behind everything reported of it. -/
structure Ahead (body : Body) (draft : Draft) : Prop where
  start_lt : body.startLine < draft.line
  reported_lt : ∀ method ∈ body.methods, method.endLine < draft.line

/-- What is reported of an open interface and its draft are in order and below `next`. -/
structure Sound (body : Body) (next : Nat) : Prop extends Recorded body next where
  draft_ahead : ∀ draft ∈ body.draft, body.Ahead draft
  draft_line_le : ∀ draft ∈ body.draft, draft.line ≤ draft.endLine
  draft_end_lt : ∀ draft ∈ body.draft, draft.endLine < next
  draft_waiting : ∀ draft ∈ body.draft, draft.Waiting

variable {body : Body} {draft : Draft} {line : Line} {next endLine : Nat}

theorem Recorded.mono (h : body.Recorded next) {later : Nat} (hle : next ≤ later) :
    body.Recorded later := by
  refine ⟨?_, h.owner_eq, ?_, h.ordered, h.seen_eq⟩
  · exact Nat.lt_of_lt_of_le h.start_lt hle
  · intro method hmethod
    obtain ⟨hstart, hline, hend⟩ := h.inside method hmethod
    exact ⟨hstart, hline, Nat.lt_of_lt_of_le hend hle⟩

theorem Sound.mono (h : body.Sound next) {later : Nat} (hle : next ≤ later) :
    body.Sound later where
  toRecorded := h.toRecorded.mono hle
  draft_ahead := h.draft_ahead
  draft_line_le := h.draft_line_le
  draft_end_lt := fun draft hdraft => Nat.lt_of_lt_of_le (h.draft_end_lt draft hdraft) hle
  draft_waiting := h.draft_waiting

/-- A draft that is read on still starts where it started. -/
theorem Ahead.moved (h : body.Ahead draft) (parens : Depth) (stage : Stage) (lastLine : Nat) :
    body.Ahead { draft with parens := parens, stage := stage, lastLine := lastLine } :=
  ⟨h.start_lt, h.reported_lt⟩

/-- A draft on a line at or above `next` starts behind everything reported. -/
theorem Recorded.ahead_of_le (h : body.Recorded next) (hle : next ≤ draft.line) :
    body.Ahead draft := by
  refine ⟨Nat.lt_of_lt_of_le h.start_lt hle, fun method hmethod => ?_⟩
  exact Nat.lt_of_lt_of_le (h.inside method hmethod).2.2 hle

/-! ## Reporting and keeping a draft -/

/-- A draft that starts behind everything reported was not seen before. -/
theorem Recorded.not_mem_seen (h : body.Recorded next) (hahead : body.Ahead draft) :
    (draft.line, draft.name) ∉ body.seen := by
  rw [h.seen_eq]
  intro hmem
  obtain ⟨method, hmethod, hkey⟩ := List.mem_map.1 hmem
  have hline : method.line = draft.line := congrArg Prod.fst hkey
  have hend := hahead.reported_lt method hmethod
  have hinside := h.inside method hmethod
  omega

/-- A draft that starts behind everything reported is reported, and a report on a line from its
first on leaves that line as it is. -/
theorem Recorded.report_eq (h : body.Recorded next) (hahead : body.Ahead draft)
    (hle : draft.line ≤ endLine) :
    body.report draft endLine =
      { body with
        methods := body.methods ++ [draft.signature body.name endLine]
        seen := body.seen ++ [(draft.line, draft.name)]
        draft := none } := by
  rw [report, if_neg (h.not_mem_seen hahead), Nat.max_eq_left hle]
  rfl

theorem Recorded.report (h : body.Recorded next) (hahead : body.Ahead draft)
    (hle : draft.line ≤ endLine) (hlt : endLine < next) :
    (body.report draft endLine).Recorded next := by
  rw [h.report_eq hahead hle]
  refine ⟨h.start_lt, ?_, ?_, ?_, ?_⟩
  · intro method hmethod
    rcases List.mem_append.1 hmethod with hmethod | hmethod
    · exact h.owner_eq method hmethod
    · rw [List.mem_singleton.1 hmethod]
      rfl
  · intro method hmethod
    rcases List.mem_append.1 hmethod with hmethod | hmethod
    · exact h.inside method hmethod
    · rw [List.mem_singleton.1 hmethod]
      exact ⟨hahead.start_lt, hle, hlt⟩
  · refine List.pairwise_append.2 ⟨h.ordered, List.pairwise_singleton _ _, ?_⟩
    intro method hmethod last hlast
    rw [List.mem_singleton.1 hlast]
    exact hahead.reported_lt method hmethod
  · simp only [h.seen_eq, List.map_append, List.map_cons, List.map_nil]
    rfl

theorem Sound.of_draft_none (h : body.Recorded next) (hnone : body.draft = none) :
    body.Sound next where
  toRecorded := h
  draft_ahead := by simp [hnone]
  draft_line_le := by simp [hnone]
  draft_end_lt := by simp [hnone]
  draft_waiting := by simp [hnone]

theorem Sound.report (h : body.Recorded next) (hahead : body.Ahead draft)
    (hle : draft.line ≤ endLine) (hlt : endLine < next) :
    (body.report draft endLine).Sound next :=
  .of_draft_none (h.report hahead hle hlt) (body.report_draft draft endLine)

theorem Sound.keep (h : body.Recorded next) (hahead : body.Ahead draft)
    (hle : draft.line ≤ draft.endLine) (hlt : draft.endLine < next)
    (hwaiting : draft.Waiting) : (body.keep draft).Sound next where
  toRecorded := ⟨h.start_lt, h.owner_eq, h.inside, h.ordered, h.seen_eq⟩
  draft_ahead := by
    rintro kept ⟨⟩
    exact ⟨hahead.start_lt, hahead.reported_lt⟩
  draft_line_le := by
    rintro kept ⟨⟩
    exact hle
  draft_end_lt := by
    rintro kept ⟨⟩
    exact hlt
  draft_waiting := by
    rintro kept ⟨⟩
    exact hwaiting

theorem Sound.await (h : body.Recorded next) (hahead : body.Ahead draft) {closedAt : Nat}
    (hle : draft.line ≤ closedAt) (hlt : closedAt < next) (budget : Nat) :
    (body.await draft closedAt budget).Sound next := by
  rw [Body.await_eq]
  split
  · exact .report h hahead hle hlt
  · rename_i hbudget
    exact .keep h (hahead.moved ..) hle hlt (Nat.pos_of_ne_zero hbudget)

/-! ## Reading a line -/

/-- What is known of a draft whose brackets were counted to the end of a line: it started on that
line or before, and the line is the last one that belongs to it. -/
structure Reaches (draft : Draft) (line : Line) : Prop where
  line_le : draft.line ≤ line.index
  lastLine_eq : draft.lastLine = line.index

theorem Sound.afterParameters (h : body.Recorded (line.index + 1)) (hahead : body.Ahead draft)
    (hreaches : Reaches draft line) (hstage : draft.stage = .parameters) :
    (body.afterParameters draft line).Sound (line.index + 1) := by
  have hend : draft.endLine = line.index := by
    rw [Draft.endLine, hstage]
    exact hreaches.lastLine_eq
  rw [Body.afterParameters_eq]
  split
  · rename_i hopen
    have hlevel : 0 < draft.parens.level := by simpa [Depth.isBalanced] using hopen
    refine .keep h hahead ?_ ?_ ?_
    · rw [hend]
      exact hreaches.line_le
    · rw [hend]
      exact Nat.lt_succ_self _
    · rw [Draft.Waiting, hstage]
      exact hlevel
  · split
    · exact .await h hahead hreaches.line_le (Nat.lt_succ_self _) body.lookahead
    · exact .report h hahead hreaches.line_le (Nat.lt_succ_self _)

theorem Sound.afterResults (h : body.Recorded (line.index + 1)) (hahead : body.Ahead draft)
    (hreaches : Reaches draft line) :
    (body.afterResults draft line).Sound (line.index + 1) := by
  rw [Body.afterResults_eq]
  split
  · exact .report h hahead hreaches.line_le (Nat.lt_succ_self _)
  · rename_i hopen
    have hlevel : 0 < draft.parens.level := by simpa [Depth.isBalanced] using hopen
    have hlast := hreaches.lastLine_eq
    refine .keep h (hahead.moved ..) ?_ ?_ hlevel
    · exact Nat.le_trans hreaches.line_le (Nat.le_of_eq hlast.symm)
    · exact Nat.lt_succ_of_le (Nat.le_of_eq hlast)

/-- A draft that starts on a line has its brackets counted to the end of that line. -/
theorem reaches_of_ofLine? (h : Draft.ofLine? line = some draft) :
    Reaches draft line ∧ draft.line = line.index ∧ draft.stage = .parameters := by
  obtain ⟨reading, name, _, _, rfl⟩ := Draft.ofLine?_eq_some_iff.1 h
  exact ⟨⟨Nat.le_refl _, rfl⟩, rfl, rfl⟩

theorem Sound.begin (h : body.Recorded next) (hnone : body.draft = none)
    (hnext : next ≤ line.index) : (body.begin line).Sound (line.index + 1) := by
  have hrecorded : body.Recorded (line.index + 1) := h.mono (by omega)
  rw [Body.begin_eq]
  split
  · rename_i draft hdraft
    obtain ⟨hreaches, hline, hstage⟩ := reaches_of_ofLine? hdraft
    exact .afterParameters hrecorded (h.ahead_of_le (hline ▸ hnext)) hreaches hstage
  · exact .of_draft_none hrecorded hnone

/-- Where a line does not belong to the draft, the draft is reported, and what is reported stays
in order. -/
theorem Sound.recorded_released (h : body.Sound next) (hdraft : draft ∈ body.draft)
    {later : Body} (hresume : body.resume draft line = (later, false)) : later.Recorded next := by
  obtain ⟨closedAt, budget, hstage, rfl⟩ := resume_released hresume
  have hend : draft.endLine = closedAt := by rw [Draft.endLine, hstage]
  exact h.toRecorded.report (h.draft_ahead draft hdraft) (hend ▸ h.draft_line_le draft hdraft)
    (hend ▸ h.draft_end_lt draft hdraft)

/-- Reading a line for signatures keeps the invariant. -/
theorem Sound.readSignatures (h : body.Sound next) (hnext : next ≤ line.index) :
    (body.readSignatures line).Sound (line.index + 1) := by
  have hrecorded : body.Recorded (line.index + 1) := h.toRecorded.mono (by omega)
  cases hdraft : body.draft with
  | none =>
    simp only [Body.readSignatures_eq, hdraft]
    exact .begin h.toRecorded hdraft hnext
  | some draft =>
    have hahead := h.draft_ahead draft hdraft
    have hle := h.draft_line_le draft hdraft
    have hlt := h.draft_end_lt draft hdraft
    have hline : draft.line ≤ line.index := by omega
    simp only [Body.readSignatures_eq, hdraft, Body.resume_eq]
    cases hstage : draft.stage with
    | parameters =>
      exact .afterParameters hrecorded (hahead.moved ..) ⟨hline, rfl⟩ rfl
    | results =>
      exact .afterResults hrecorded (hahead.moved ..) ⟨hline, rfl⟩
    | between closedAt budget =>
      have hend : draft.endLine = closedAt := by rw [Draft.endLine, hstage]
      rw [hend] at hle hlt
      dsimp only
      split_ifs
      · exact .await hrecorded hahead hle (by omega) (budget - 1)
      · exact .afterResults hrecorded (hahead.moved ..) ⟨hline, rfl⟩
      · -- the line does not belong to the draft, which ended on `closedAt`, so it may start one
        exact .begin (h.toRecorded.report hahead hle hlt) (body.report_draft draft closedAt) hnext

/-- Reading a line keeps the invariant. -/
theorem Sound.read (h : body.Sound next) (hnext : next ≤ line.index) :
    (body.read line).Sound (line.index + 1) := by
  have hread := h.readSignatures hnext
  exact ⟨⟨hread.start_lt, hread.owner_eq, hread.inside, hread.ordered, hread.seen_eq⟩,
    fun draft hdraft => ⟨(hread.draft_ahead draft hdraft).start_lt,
      (hread.draft_ahead draft hdraft).reported_lt⟩,
    hread.draft_line_le, hread.draft_end_lt, hread.draft_waiting⟩

/-! ## Closing an interface -/

/-- An interface closes with what was reported of it and, behind that, with its draft, which
ends where it stands. -/
theorem Sound.close_methods (h : body.Sound next) (hnext : next ≤ endLine + 1) :
    (body.close endLine).methods =
      body.methods ++
        (body.draft.map fun draft => draft.signature body.name draft.endLine).toList := by
  cases hdraft : body.draft with
  | none => simp [Body.close_eq, hdraft]
  | some draft =>
    have hlt := h.draft_end_lt draft hdraft
    have hmin : min draft.endLine endLine = draft.endLine := Nat.min_eq_left (by omega)
    simp only [Body.close_eq, hdraft, hmin, Option.map_some, Option.toList_some]
    rw [h.report_eq (h.draft_ahead draft hdraft) (h.draft_line_le draft hdraft)]

/-- A sound interface closes well formed on every line that is not below those read. -/
theorem Sound.close (h : body.Sound next) (hnext : next ≤ endLine + 1) :
    (body.close endLine).WellFormed := by
  -- the draft, if there is one, is reported where it ends, and then nothing is left to report
  have hclosed : ∃ final : Body, final.Recorded next ∧ final.name = body.name ∧
      final.startLine = body.startLine ∧ final.methods = (body.close endLine).methods := by
    rw [h.close_methods hnext]
    cases hdraft : body.draft with
    | none => exact ⟨body, h.toRecorded, rfl, rfl, by simp⟩
    | some draft =>
      have hahead := h.draft_ahead draft hdraft
      have hle := h.draft_line_le draft hdraft
      have hheading := body.sameHeading_report draft draft.endLine
      refine ⟨body.report draft draft.endLine,
        h.toRecorded.report hahead hle (h.draft_end_lt draft hdraft),
        hheading.name_eq, hheading.startLine_eq, ?_⟩
      rw [h.report_eq hahead hle]
      rfl
  obtain ⟨final, hfinal, hname, hstart, hmethods⟩ := hclosed
  refine ⟨?_, ?_, ?_, ?_⟩
  · have := h.start_lt
    simp only [close_startLine, close_endLine]
    omega
  · intro method hmethod
    rw [close_name, ← hname]
    exact hfinal.owner_eq method (hmethods ▸ hmethod)
  · intro method hmethod
    have := hfinal.inside method (hmethods ▸ hmethod)
    simp only [close_startLine, close_endLine]
    omega
  · rw [← hmethods]
    exact hfinal.ordered

/-- An interface that opens on a line is sound behind that line. -/
theorem sound_of_ofLine? {lookahead : Nat} (h : ofLine? lookahead line = some body) :
    body.Sound (line.index + 1) ∧ body.startLine = line.index := by
  obtain ⟨reading, name, _, _, rfl⟩ := ofLine?_eq_some_iff.1 h
  refine ⟨.of_draft_none ⟨Nat.lt_succ_self _, ?_, ?_, List.Pairwise.nil, rfl⟩ rfl, rfl⟩
  · simp
  · simp

end Body

/-! ## The invariant of the scanner -/

namespace Scanner

/-- The interfaces closed so far are well formed and in order, and the open one is sound, starts
behind them, and has an open curly bracket. -/
structure Sound (scanner : Scanner) (next : Nat) : Prop where
  found_wellFormed : ∀ interface ∈ scanner.found, interface.WellFormed
  found_lt : ∀ interface ∈ scanner.found, interface.endLine < next
  found_ordered : scanner.found.Pairwise Interface.Before
  body_sound : ∀ body ∈ scanner.body, body.Sound next
  body_open : ∀ body ∈ scanner.body, 0 < body.braces.level
  body_behind : ∀ body ∈ scanner.body, ∀ interface ∈ scanner.found,
    interface.endLine < body.startLine

variable {scanner : Scanner} {body : Body} {line : Line} {next : Nat}

theorem initial_sound (next : Nat) : initial.Sound next := by
  constructor <;> simp [initial]

theorem Sound.mono (h : scanner.Sound next) {later : Nat} (hle : next ≤ later) :
    scanner.Sound later where
  found_wellFormed := h.found_wellFormed
  found_lt := fun interface hmem => Nat.lt_of_lt_of_le (h.found_lt interface hmem) hle
  found_ordered := h.found_ordered
  body_sound := fun body hbody => (h.body_sound body hbody).mono hle
  body_open := h.body_open
  body_behind := h.body_behind

/-- The interfaces closed so far, and behind them the open interface closed on a line, are well
formed and in order. -/
theorem Sound.found_append_close (h : scanner.Sound next) (hbody : body.Sound next)
    (hbehind : ∀ interface ∈ scanner.found, interface.endLine < body.startLine) {endLine : Nat}
    (hnext : next ≤ endLine + 1) :
    (∀ interface ∈ scanner.found ++ [body.close endLine], interface.WellFormed) ∧
      (∀ interface ∈ scanner.found ++ [body.close endLine], interface.endLine < endLine + 1) ∧
      (scanner.found ++ [body.close endLine]).Pairwise Interface.Before := by
  refine ⟨?_, ?_, ?_⟩
  · intro interface hmem
    rcases List.mem_append.1 hmem with hmem | hmem
    · exact h.found_wellFormed interface hmem
    · rw [List.mem_singleton.1 hmem]
      exact hbody.close hnext
  · intro interface hmem
    rcases List.mem_append.1 hmem with hmem | hmem
    · exact Nat.lt_of_lt_of_le (h.found_lt interface hmem) hnext
    · rw [List.mem_singleton.1 hmem, Body.close_endLine]
      exact Nat.lt_succ_self _
  · refine List.pairwise_append.2 ⟨h.found_ordered, List.pairwise_singleton _ _, ?_⟩
    intro interface hmem last hlast
    rw [List.mem_singleton.1 hlast, Interface.Before, Body.close_startLine]
    exact hbehind interface hmem

theorem Sound.settle (h : scanner.Sound (line.index + 1)) (hbody : body.Sound (line.index + 1))
    (hbehind : ∀ interface ∈ scanner.found, interface.endLine < body.startLine) :
    (scanner.settle body line).Sound (line.index + 1) := by
  rw [Scanner.settle_eq]
  split
  · obtain ⟨heach, hlt, hordered⟩ := h.found_append_close hbody hbehind (Nat.le_refl _)
    exact ⟨heach, hlt, hordered, by simp, by simp, by simp⟩
  · rename_i hopen
    have hlevel : 0 < body.braces.level := by simpa [Depth.isBalanced] using hopen
    refine ⟨h.found_wellFormed, h.found_lt, h.found_ordered, ?_, ?_, ?_⟩
    · rintro _ ⟨⟩
      exact hbody
    · rintro _ ⟨⟩
      exact hlevel
    · rintro _ ⟨⟩
      exact hbehind

/-- Reading a line keeps the invariant. -/
theorem Sound.step (h : scanner.Sound next) (hnext : next ≤ line.index) (lookahead : Nat) :
    (scanner.step lookahead line).Sound (line.index + 1) := by
  have hlater : scanner.Sound (line.index + 1) := h.mono (by omega)
  rw [Scanner.step_eq]
  split
  · exact hlater
  · split
    · rename_i body hbody
      refine hlater.settle ((h.body_sound body hbody).read hnext) ?_
      rw [Body.read_startLine]
      exact h.body_behind body hbody
    · split
      · rename_i body hbody
        obtain ⟨hsound, hstart⟩ := Body.sound_of_ofLine? hbody
        refine hlater.settle hsound fun interface hmem => ?_
        have := h.found_lt interface hmem
        omega
      · exact hlater

/-- Reading ascending lines keeps the invariant, with any bound above the lines read. -/
theorem Sound.sweep (lookahead : Nat) {lines : List Line} (hlines : Ascending lines)
    (h : scanner.Sound next) (hnext : ∀ line ∈ lines, next ≤ line.index) {limit : Nat}
    (hle : next ≤ limit) (hlimit : ∀ line ∈ lines, line.index < limit) :
    (sweep (Scanner.step lookahead) scanner lines).Sound limit := by
  induction lines generalizing scanner next with
  | nil => exact h.mono hle
  | cons line more ih =>
    have hstep := h.step (hnext line (List.mem_cons_self ..)) lookahead
    refine ih hlines.of_cons hstep ?_ (hlimit line (List.mem_cons_self ..)) ?_
    · exact fun later hlater => List.rel_of_pairwise_cons hlines hlater
    · exact fun later hlater => hlimit later (List.mem_cons_of_mem line hlater)

end Scanner

/-! ## The order of a finished scan -/

/-- No key is reported twice by a well formed interface. -/
theorem Interface.WellFormed.keys_nodup {interface : Interface} (h : interface.WellFormed) :
    (interface.methods.map Signature.key).Nodup := by
  refine List.pairwise_map.2 (h.ordered.imp_of_mem ?_)
  intro method later hmethod _ hbefore hkey
  have hline : method.line = later.line := congrArg Prod.fst hkey
  have hinside := h.inside method hmethod
  rw [Signature.Before] at hbefore
  omega

/-- Of two interfaces in order the first reports no key of the second. -/
theorem Interface.WellFormed.keys_disjoint {interface later : Interface}
    (h : interface.WellFormed) (hlater : later.WellFormed) (hbefore : interface.Before later) :
    List.Disjoint (interface.methods.map Signature.key) (later.methods.map Signature.key) := by
  intro key hkey hkeyLater
  obtain ⟨method, hmethod, rfl⟩ := List.mem_map.1 hkey
  obtain ⟨other, hother, heq⟩ := List.mem_map.1 hkeyLater
  have hline : other.line = method.line := congrArg Prod.fst heq
  have hinside := h.inside method hmethod
  have hinsideLater := hlater.inside other hother
  rw [Interface.Before] at hbefore
  omega

theorem Scanner.Sound.finish {scanner : Scanner} {size : Nat} (h : scanner.Sound size) :
    InSourceOrder size (scanner.finish size) := by
  have hfinish : (∀ interface ∈ scanner.finish size, interface.WellFormed) ∧
      (∀ interface ∈ scanner.finish size, interface.endLine < size) ∧
      (scanner.finish size).Pairwise Interface.Before := by
    rw [Scanner.finish_eq]
    split
    · rename_i body hbody
      have hsound := h.body_sound body hbody
      -- the document is not empty, since an interface opened in it
      have hsize : size - 1 + 1 = size := by
        have := hsound.start_lt
        omega
      have hclosed := h.found_append_close hsound (h.body_behind body hbody)
        (Nat.le_of_eq hsize.symm)
      rwa [hsize] at hclosed
    · exact ⟨h.found_wellFormed, h.found_lt, h.found_ordered⟩
  obtain ⟨heach, hinside, hordered⟩ := hfinish
  refine ⟨heach, hinside, hordered, List.nodup_flatMap.2 ⟨?_, ?_⟩⟩
  · exact fun interface hmem => (heach interface hmem).keys_nodup
  · refine hordered.imp_of_mem ?_
    intro interface later hmem hlater hbefore
    exact (heach interface hmem).keys_disjoint (heach later hlater) hbefore

/-- If no two elements of a list have a property and one of them has it, it is the only one. -/
theorem countP_eq_one_of_pairwise {α : Type} {p : α → Bool} {elements : List α} {element : α}
    (h : elements.Pairwise fun first second => p first = true → p second = false)
    (hmem : element ∈ elements) (hp : p element = true) : elements.countP p = 1 := by
  induction elements with
  | nil => cases hmem
  | cons head rest ih =>
    obtain ⟨hhead, hrest⟩ := List.pairwise_cons.1 h
    by_cases hphead : p head = true
    · have hnone : rest.countP p = 0 := by
        rw [List.countP_eq_zero]
        intro other hother
        simp [hhead other hother hphead]
      rw [List.countP_cons_of_pos hphead, hnone]
    · rw [List.countP_cons_of_neg hphead]
      rcases List.mem_cons.1 hmem with rfl | hmem
      · exact absurd hp hphead
      · exact ih hrest hmem

/-- A line inside an interface is inside no other. -/
theorem InSourceOrder.countP_contains {size line : Nat} {interfaces : List Interface}
    (h : InSourceOrder size interfaces) {interface : Interface} (hmem : interface ∈ interfaces)
    (hline : interface.contains line = true) :
    interfaces.countP (·.contains line) = 1 := by
  refine countP_eq_one_of_pairwise (h.ordered.imp ?_) hmem hline
  intro first second hbefore hfirst
  simp only [Interface.contains, Interface.Before, Bool.and_eq_true, decide_eq_true_eq,
    Bool.and_eq_false_iff, decide_eq_false_iff_not] at hbefore hfirst ⊢
  omega

/-- An interface that starts in front of another ends in front of it. -/
theorem InSourceOrder.endLine_lt {size : Nat} {interfaces : List Interface}
    (h : InSourceOrder size interfaces) {interface later : Interface}
    (hmem : interface ∈ interfaces) (hlater : later ∈ interfaces)
    (hstart : interface.startLine < later.startLine) : interface.endLine < later.startLine := by
  have hall : ∀ first ∈ interfaces, ∀ second ∈ interfaces,
      first.startLine < second.startLine → first.endLine < second.startLine := by
    refine List.Pairwise.forall_of_forall_of_flip ?_ (h.ordered.imp ?_) (h.ordered.imp_of_mem ?_)
    · exact fun first _ hlt => absurd hlt (Nat.lt_irrefl _)
    · exact fun hbefore _ => hbefore
    · intro first second hfirst _ hbefore hlt
      have := (h.each first hfirst).start_le_end
      rw [Interface.Before] at hbefore
      omega
  exact hall interface hmem later hlater hstart

/-- The state of the scanner behind the last line of a text is sound. -/
theorem Document.sweep_sound (text : String) (lookahead : Nat) :
    (sweep (Scanner.step lookahead) Scanner.initial (ofText text).lines).Sound
      (ofText text).size :=
  (Scanner.initial_sound 0).sweep lookahead (ofText_ascending text)
    (fun line _ => Nat.zero_le line.index) (Nat.zero_le _) (fun _ hline => index_lt_size hline)

/-- The interfaces found in a text, with any lookahead, lie inside the document, stand in source
order and do not overlap.  The signatures of each lie inside it, carry its name, stand in source
order and do not overlap, and no line and name is reported twice in the document. -/
theorem Document.interfaces_inSourceOrder (text : String) (lookahead : Nat) :
    InSourceOrder (ofText text).size ((ofText text).interfaces lookahead) :=
  (sweep_sound text lookahead).finish

end Wayfinder
