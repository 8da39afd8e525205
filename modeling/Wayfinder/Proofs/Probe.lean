import Wayfinder.Outline
import Wayfinder.Proofs.Interface.Invariant
import Wayfinder.Proofs.Receiver

/-!
# Probed scans

A scan is handed three operations: feeding a text to a depth, reporting a signature, and
ending a draft when its interface closes.  The program hands in the plain ones.  A probe that
checks what an operation is given, and refuses if the check fails, shows that the check never
fails: the scan with that probe then gives exactly what the program gives.

* `Probe.outline` is the scan of a document with a probe, and `Probe.plain_outline` says that
  the program is the scan with the plain operations.
* `Probe.Faithful` says on what a probe must agree with the program: on reports in a sound
  state, and on texts that are fed to a depth inside some limit.
* `Scanner.Within` bounds the depths of a scan by the number of characters read.
* `Probe.Faithful.outline_eq`: a faithful probe does not change the outline of a text that is
  shorter than its limit.
-/

namespace Wayfinder

/-! ## Scans of a document -/

section Document

variable {m : Type → Type} [Monad m]

/-- The interfaces declared in a document. -/
def Probe.interfaces (probe : Probe m) (document : Document) (lookahead : Nat) :
    m (List Interface) := do
  let scanner ← document.lines.foldlM (probe.step lookahead) Scanner.initial
  probe.finish scanner document.size

/-- The methods with a receiver declared in a document. -/
def Counter.receiverMethods (count : Counter m) (document : Document) :
    m (List ReceiverMethod) :=
  document.lines.foldlM (count.stepReceiver document) []

/-- Everything declared in a document. -/
def Probe.outline (probe : Probe m) (document : Document) (lookahead : Nat) : m Outline := do
  let interfaces ← probe.interfaces document lookahead
  let receiverMethods ← probe.feed.receiverMethods document
  return { interfaces := interfaces, receiverMethods := receiverMethods }

end Document

/-- The program is the scan with the plain operations. -/
theorem Probe.plain_outline (document : Document) (lookahead : Nat) :
    Id.run (plain.outline document lookahead) = document.outline lookahead := by
  have hscanner : Id.run (document.lines.foldlM (plain.step lookahead) Scanner.initial) =
      sweep (Scanner.step lookahead) Scanner.initial document.lines :=
    List.idRun_foldlM
  have hinterfaces : Id.run (plain.interfaces document lookahead) =
      document.interfaces lookahead :=
    congrArg (Scanner.finish · document.size) hscanner
  have hmethods : Id.run (Counter.plain.receiverMethods document) = document.receiverMethods :=
    List.idRun_foldlM
  rw [Document.outline, ← hinterfaces, ← hmethods]
  rfl

/-! ## Depths inside a limit -/

/-- A word is not further away from zero than the number that it was made of. -/
theorem natAbs_toInt_ofInt_le (n : Int) : (Int32.ofInt n).toInt.natAbs ≤ n.natAbs := by
  have hsize : Int32.size = 4294967296 := rfl
  rw [Int32.toInt_ofInt, hsize, Int.bmod]
  split <;> omega

theorem Bracket.natAbs_countStep_le (bracket : Bracket) (count : Int) (c : Char) :
    (bracket.countStep count c).natAbs ≤ count.natAbs + 1 := by
  unfold countStep
  split_ifs <;> omega

/-- A character moves a depth by one at most, also where the word wraps around. -/
theorem Bracket.natAbs_step_le (bracket : Bracket) (level : Int32) (c : Char) :
    (bracket.step level c).toInt.natAbs ≤ level.toInt.natAbs + 1 := by
  have hstep := bracket.step_ofInt level.toInt c
  rw [Int32.ofInt_toInt] at hstep
  rw [hstep]
  exact Nat.le_trans (natAbs_toInt_ofInt_le _) (bracket.natAbs_countStep_le _ c)

/-- A text moves a depth by the number of its characters at most. -/
theorem Bracket.natAbs_after_le (bracket : Bracket) (level : Int32) (text : List Char) :
    (bracket.after level text).toInt.natAbs ≤ level.toInt.natAbs + text.length := by
  induction text generalizing level with
  | nil => exact Nat.le_refl _
  | cons c rest ih =>
    have hstep := bracket.natAbs_step_le level c
    have hrest := ih (bracket.step level c)
    have hafter : bracket.after level (c :: rest) = bracket.after (bracket.step level c) rest := rfl
    rw [hafter, List.length_cons]
    omega

/-- A depth is at most `reach` away from zero. -/
def Depth.Within (depth : Depth) (reach : Nat) : Prop :=
  depth.level.toInt.natAbs ≤ reach

theorem Depth.Within.feed {depth : Depth} {reach : Nat} (h : depth.Within reach)
    (text : List Char) : (depth.feed text).Within (reach + text.length) := by
  have hafter := depth.bracket.natAbs_after_le depth.level text
  unfold Depth.Within at h
  show (depth.bracket.after depth.level text).toInt.natAbs ≤ reach + text.length
  omega

theorem Depth.Within.mono {depth : Depth} {reach further : Nat} (h : depth.Within reach)
    (hle : reach ≤ further) : depth.Within further :=
  Nat.le_trans h hle

/-- The depths of an open interface and of its draft are at most `reach` away from zero. -/
structure Body.Within (body : Body) (reach : Nat) : Prop where
  braces : body.braces.Within reach
  parens : ∀ draft ∈ body.draft, draft.parens.Within reach

/-- A line moves the depths of an interface by the number of its characters at most. -/
theorem Body.Within.read {body : Body} {reach : Nat} (h : body.Within reach) (line : Line) :
    (body.read line).Within (reach + line.chars.length) := by
  refine ⟨?_, fun kept hkept => ?_⟩
  · rw [read_braces]
    exact h.braces.feed line.chars
  · rcases parens_of_mem_readSignatures hkept with hparens | ⟨draft, hdraft, hparens | hparens⟩
    · have hfresh : Depth.Within (.ofCount .parens 0) reach := Nat.zero_le reach
      rw [hparens]
      exact hfresh.feed line.chars
    · rw [hparens]
      exact (h.parens draft hdraft).mono (Nat.le_add_right _ _)
    · rw [hparens]
      exact (h.parens draft hdraft).feed line.chars

namespace Scanner

variable {scanner : Scanner} {body : Body} {line : Line} {reach : Nat}

/-- The depths of a scan are at most `reach` away from zero. -/
def Within (scanner : Scanner) (reach : Nat) : Prop :=
  ∀ body ∈ scanner.body, body.Within reach

theorem initial_within (reach : Nat) : initial.Within reach := by
  rintro _ ⟨⟩

theorem Within.settle (h : body.Within reach) (scanner : Scanner) (line : Line) :
    (scanner.settle body line).Within reach := by
  rw [Scanner.settle_eq]
  split
  · rintro _ ⟨⟩
  · rintro _ ⟨⟩
    exact h

/-- A line moves the depths of a scan by the number of its characters at most. -/
theorem Within.step (h : scanner.Within reach) (lookahead : Nat) (line : Line) :
    (scanner.step lookahead line).Within (reach + line.chars.length) := by
  have hlater : scanner.Within (reach + line.chars.length) := by
    intro body hbody
    have hwithin := h body hbody
    exact ⟨hwithin.braces.mono (Nat.le_add_right _ _), fun draft hdraft =>
      (hwithin.parens draft hdraft).mono (Nat.le_add_right _ _)⟩
  rw [Scanner.step_eq]
  split
  · exact hlater
  · split
    · rename_i body hbody
      exact .settle ((h body hbody).read line) scanner line
    · split
      · rename_i body hbody
        obtain ⟨reading, name, _, _, rfl⟩ := Body.ofLine?_eq_some_iff.1 hbody
        have hfresh : Depth.Within (.ofCount .braces 0) reach := Nat.zero_le reach
        have hbraces : (Depth.ofBraces line.chars).Within (reach + line.chars.length) :=
          hfresh.feed line.chars
        refine .settle ?_ scanner line
        exact ⟨hbraces, by rintro _ ⟨⟩⟩
      · exact hlater

end Scanner

/-! ## Faithful probes -/

namespace Probe

/-- The plain operations as ones that may refuse, and never do. -/
def willing : Probe Option where
  feed depth text := some (depth.feed text)
  report body draft endLine := some (body.report draft endLine)
  cut draft endLine := some (min draft.endLine endLine)

/-- A probe does what the program does: it feeds texts that keep a depth inside the limit, it
reports drafts that start behind everything reported and do not end before they start, and it
ends a draft that stands inside its interface. -/
structure Faithful (probe : Probe Option) (limit : Nat) : Prop where
  feed_eq : ∀ {depth : Depth} {reach : Nat} (text : List Char), depth.Within reach →
    reach + text.length ≤ limit → probe.feed depth text = some (depth.feed text)
  report_eq : ∀ {body : Body} {draft : Draft} {next endLine : Nat}, body.Recorded next →
    body.Ahead draft → draft.line ≤ endLine →
    probe.report body draft endLine = some (body.report draft endLine)
  cut_eq : ∀ {draft : Draft} {endLine : Nat}, draft.endLine ≤ endLine →
    probe.cut draft endLine = some (min draft.endLine endLine)

/-- The plain operations are faithful without any limit. -/
theorem willing_faithful (limit : Nat) : willing.Faithful limit :=
  ⟨fun _ _ _ => rfl, fun _ _ _ => rfl, fun _ => rfl⟩

namespace Faithful

variable {probe : Probe Option} {limit next reach : Nat} {body : Body} {draft : Draft}
  {line : Line} {scanner : Scanner}

theorem ofParens_eq (h : probe.Faithful limit) {text : List Char} (hlimit : text.length ≤ limit) :
    probe.feed.ofParens text = some (Depth.ofParens text) := by
  have hfresh : Depth.Within (.ofCount .parens 0) 0 := Nat.le_refl 0
  exact h.feed_eq text hfresh (by omega)

theorem ofBraces_eq (h : probe.Faithful limit) {text : List Char} (hlimit : text.length ≤ limit) :
    probe.feed.ofBraces text = some (Depth.ofBraces text) := by
  have hfresh : Depth.Within (.ofCount .braces 0) 0 := Nat.le_refl 0
  exact h.feed_eq text hfresh (by omega)

theorem await_eq (h : probe.Faithful limit) (hrecorded : body.Recorded next)
    (hahead : body.Ahead draft) {closedAt : Nat} (hle : draft.line ≤ closedAt) (budget : Nat) :
    probe.await body draft closedAt budget = some (body.await draft closedAt budget) := by
  rw [Probe.await, Body.await_eq]
  split
  · exact h.report_eq hrecorded hahead hle
  · rfl

theorem afterParameters_eq (h : probe.Faithful limit) (hrecorded : body.Recorded next)
    (hahead : body.Ahead draft) (hle : draft.line ≤ line.index) :
    probe.afterParameters body draft line = some (body.afterParameters draft line) := by
  rw [Probe.afterParameters, Body.afterParameters_eq]
  split
  · rfl
  · split
    · exact h.await_eq hrecorded hahead hle body.lookahead
    · exact h.report_eq hrecorded hahead hle

theorem afterResults_eq (h : probe.Faithful limit) (hrecorded : body.Recorded next)
    (hahead : body.Ahead draft) (hle : draft.line ≤ line.index) :
    probe.afterResults body draft line = some (body.afterResults draft line) := by
  rw [Probe.afterResults, Body.afterResults_eq]
  split
  · exact h.report_eq hrecorded hahead hle
  · rfl

theorem draftOfLine?_eq (h : probe.Faithful limit) (hlimit : line.chars.length ≤ limit) :
    probe.draftOfLine? line = some (Draft.ofLine? line) := by
  rw [Probe.draftOfLine?, Draft.ofLine?_eq, h.ofParens_eq hlimit]
  cases (Heading.signature.read? line.chars).bind (·.group? 1) <;> rfl

theorem begin_eq (h : probe.Faithful limit) (hrecorded : body.Recorded next)
    (hnext : next ≤ line.index) (hlimit : line.chars.length ≤ limit) :
    probe.begin body line = some (body.begin line) := by
  rw [Probe.begin, Body.begin_eq, h.draftOfLine?_eq hlimit, Option.bind_eq_bind,
    Option.bind_some]
  cases hdraft : Draft.ofLine? line with
  | none => rfl
  | some draft =>
    have hline : draft.line = line.index := (Body.reaches_of_ofLine? hdraft).2.1
    have hahead : body.Ahead draft := hrecorded.ahead_of_le (by omega)
    exact h.afterParameters_eq hrecorded hahead (Nat.le_of_eq hline)

/-- A draft is read on as the program does it. -/
theorem resume_eq (h : probe.Faithful limit) (hsound : body.Sound next)
    (hnext : next ≤ line.index) (hdraft : draft ∈ body.draft)
    (hwithin : draft.parens.Within reach) (hlimit : reach + line.chars.length ≤ limit) :
    probe.resume body draft line = some (body.resume draft line) := by
  have hahead := hsound.draft_ahead draft hdraft
  have hle := hsound.draft_line_le draft hdraft
  have hlt := hsound.draft_end_lt draft hdraft
  have hline : draft.line ≤ line.index := by omega
  have hfeed := h.feed_eq line.chars hwithin hlimit
  have hfresh : probe.feed.ofParens line.chars = some (Depth.ofParens line.chars) :=
    h.ofParens_eq (by omega)
  rw [Probe.resume, Body.resume_eq]
  cases hstage : draft.stage with
  | parameters =>
    simp only [hfeed, Option.bind_eq_bind, Option.bind_some,
      h.afterParameters_eq hsound.toRecorded (hahead.moved _ .parameters line.index) hline]
    rfl
  | results =>
    simp only [hfeed, Option.bind_eq_bind, Option.bind_some,
      h.afterResults_eq hsound.toRecorded (hahead.moved _ .results line.index) hline]
    rfl
  | between closedAt budget =>
    have hclosed : draft.line ≤ closedAt := by simpa [Draft.endLine, hstage] using hle
    simp only [hfresh, Option.bind_eq_bind, Option.bind_some,
      h.await_eq hsound.toRecorded hahead hclosed, h.report_eq hsound.toRecorded hahead hclosed,
      h.afterResults_eq hsound.toRecorded (hahead.moved _ (.between closedAt budget) line.index)
        hline]
    split_ifs <;> rfl

theorem readSignatures_eq (h : probe.Faithful limit) (hsound : body.Sound next)
    (hnext : next ≤ line.index) (hwithin : body.Within reach)
    (hlimit : reach + line.chars.length ≤ limit) :
    probe.readSignatures body line = some (body.readSignatures line) := by
  have hshort : line.chars.length ≤ limit := by omega
  rw [Probe.readSignatures, Body.readSignatures_eq]
  cases hdraft : body.draft with
  | none => exact h.begin_eq hsound.toRecorded hnext hshort
  | some draft =>
    dsimp only
    rw [h.resume_eq hsound hnext hdraft (hwithin.parens draft hdraft) hlimit,
      Option.bind_eq_bind, Option.bind_some]
    cases hresume : body.resume draft line with
    | mk later consumed =>
      cases consumed with
      | true => rfl
      | false =>
        exact h.begin_eq (hsound.recorded_released hdraft hresume) hnext hshort

theorem read_eq (h : probe.Faithful limit) (hsound : body.Sound next)
    (hnext : next ≤ line.index) (hwithin : body.Within reach)
    (hlimit : reach + line.chars.length ≤ limit) :
    probe.read body line = some (body.read line) := by
  have hbraces : probe.feed (body.readSignatures line).braces line.chars =
      some ((body.readSignatures line).braces.feed line.chars) := by
    rw [Body.readSignatures_braces]
    exact h.feed_eq line.chars hwithin.braces hlimit
  rw [Probe.read, h.readSignatures_eq hsound hnext hwithin hlimit, Option.bind_eq_bind,
    Option.bind_some, hbraces]
  rfl

theorem close_eq (h : probe.Faithful limit) (hsound : body.Sound next) {endLine : Nat}
    (hnext : next ≤ endLine + 1) : probe.close body endLine = some (body.close endLine) := by
  rw [Probe.close, Body.close_eq]
  cases hdraft : body.draft with
  | none => rfl
  | some draft =>
    have hlt := hsound.draft_end_lt draft hdraft
    have hle := hsound.draft_line_le draft hdraft
    have hcut := h.cut_eq (by omega : draft.endLine ≤ endLine)
    have hreport := h.report_eq hsound.toRecorded (hsound.draft_ahead draft hdraft)
      (by omega : draft.line ≤ min draft.endLine endLine)
    simp [hcut, hreport]

theorem settle_eq (h : probe.Faithful limit) (hsound : body.Sound (line.index + 1))
    (scanner : Scanner) : probe.settle scanner body line = some (scanner.settle body line) := by
  rw [Probe.settle, Scanner.settle_eq, h.close_eq hsound (Nat.le_refl _)]
  split <;> rfl

theorem bodyOfLine?_eq (h : probe.Faithful limit) (lookahead : Nat)
    (hlimit : line.chars.length ≤ limit) :
    probe.bodyOfLine? lookahead line = some (Body.ofLine? lookahead line) := by
  rw [Probe.bodyOfLine?, Body.ofLine?_eq, h.ofBraces_eq hlimit]
  cases (Heading.interface.read? line.chars).bind (·.group? 1) <;> rfl

/-- A line is read as the program reads it. -/
theorem step_eq (h : probe.Faithful limit) (lookahead : Nat) (hsound : scanner.Sound next)
    (hnext : next ≤ line.index) (hwithin : scanner.Within reach)
    (hlimit : reach + line.chars.length ≤ limit) :
    probe.step lookahead scanner line = some (scanner.step lookahead line) := by
  rw [Probe.step, Scanner.step_eq]
  split
  · rfl
  · cases hbody : scanner.body with
    | some body =>
      have hopen := hsound.body_sound body hbody
      dsimp only
      rw [h.read_eq hopen hnext (hwithin body hbody) hlimit, Option.bind_eq_bind,
        Option.bind_some, h.settle_eq (hopen.read hnext)]
    | none =>
      dsimp only
      rw [h.bodyOfLine?_eq lookahead (by omega), Option.bind_eq_bind, Option.bind_some]
      cases hopened : Body.ofLine? lookahead line with
      | none => rfl
      | some body => exact h.settle_eq (Body.sound_of_ofLine? hopened).1 scanner

/-- Ascending lines are read as the program reads them. -/
theorem foldlM_step_eq (h : probe.Faithful limit) (lookahead : Nat) {lines : List Line}
    (hlines : Ascending lines) (hsound : scanner.Sound next)
    (hnext : ∀ line ∈ lines, next ≤ line.index) (hwithin : scanner.Within reach)
    (hlimit : reach + charCount lines ≤ limit) :
    lines.foldlM (probe.step lookahead) scanner =
      some (sweep (Scanner.step lookahead) scanner lines) := by
  induction lines generalizing scanner next reach with
  | nil => rfl
  | cons line more ih =>
    rw [charCount_cons] at hlimit
    have hfirst := hnext line List.mem_cons_self
    rw [List.foldlM_cons, h.step_eq lookahead hsound hfirst hwithin (by omega),
      Option.bind_eq_bind, Option.bind_some]
    refine ih hlines.of_cons (hsound.step hfirst lookahead) ?_ (hwithin.step lookahead line) ?_
    · exact fun later hlater => List.rel_of_pairwise_cons hlines hlater
    · omega

theorem interfaces_eq (h : probe.Faithful limit) {text : String} (lookahead : Nat)
    (hlimit : text.length ≤ limit) :
    probe.interfaces (Document.ofText text) lookahead =
      some ((Document.ofText text).interfaces lookahead) := by
  have hcount := Document.charCount_le text
  have hsweep := h.foldlM_step_eq lookahead (Document.ofText_ascending text)
    (Scanner.initial_sound 0) (fun line _ => Nat.zero_le line.index) (Scanner.initial_within 0)
    (by omega)
  have hsound := Document.sweep_sound text lookahead
  rw [Probe.interfaces, hsweep, Option.bind_eq_bind, Option.bind_some, Document.interfaces,
    Probe.finish, Scanner.finish_eq]
  cases hbody : (sweep (Scanner.step lookahead) Scanner.initial
      (Document.ofText text).lines).body with
  | none => rfl
  | some body =>
    dsimp only
    rw [h.close_eq (hsound.body_sound body hbody) (by omega)]
    rfl

/-! ## Methods with a receiver -/

theorem endFrom_eq (h : probe.Faithful limit) {parens braces : Depth} {lines : List Line}
    (hparens : parens.Within reach) (hbraces : braces.Within reach)
    (hlimit : reach + charCount lines ≤ limit) (last : Nat) :
    probe.feed.endFrom parens braces last lines =
      some (ReceiverMethod.endFrom parens braces last lines) := by
  induction lines generalizing parens braces reach last with
  | nil => rfl
  | cons line more ih =>
    rw [charCount_cons] at hlimit
    rw [Counter.endFrom, ReceiverMethod.endFrom_cons]
    split
    · exact ih hparens hbraces (by omega) line.index
    · rw [h.feed_eq line.chars hparens (by omega), Option.bind_eq_bind, Option.bind_some,
        h.feed_eq line.chars hbraces (by omega), Option.bind_some,
        ih (hparens.feed line.chars) (hbraces.feed line.chars) (by omega)]
      exact (apply_ite some _ _ _).symm

/-- The round brackets of a declaration start with one that is open. -/
theorem endLineOf_eq (h : probe.Faithful limit) (start : Nat) {rest : List Char}
    {following : List Line} (hlimit : 1 + rest.length + charCount following ≤ limit) :
    probe.feed.endLineOf start rest following =
      some (ReceiverMethod.endLineOf start rest following) := by
  have hparens : Depth.Within (.ofCount .parens 1) 1 := Nat.le_refl 1
  have hfresh : Depth.Within (.ofCount .braces 0) 1 := Nat.zero_le 1
  have hbraces : (Depth.ofBraces rest).Within (1 + rest.length) := hfresh.feed rest
  have hopened : probe.feed ⟨.parens, 1⟩ rest = some ((Depth.ofCount .parens 1).feed rest) :=
    h.feed_eq rest hparens (by omega)
  rw [Counter.endLineOf, ReceiverMethod.endLineOf_eq_ite, hopened, Option.bind_eq_bind,
    Option.bind_some, h.ofBraces_eq (by omega), Option.bind_some,
    h.endFrom_eq (hparens.feed rest) hbraces hlimit]
  exact (apply_ite some _ _ _).symm

theorem methodOfLine?_eq (h : probe.Faithful limit) {following : List Line}
    (hlimit : 1 + line.chars.length + charCount following ≤ limit) :
    probe.feed.methodOfLine? line following = some (ReceiverMethod.ofLine? line following) := by
  rw [Counter.methodOfLine?, ReceiverMethod.ofLine?_eq]
  cases hread : Heading.receiver.read? line.chars with
  | none => rfl
  | some reading =>
    obtain ⟨lead, inner, middle, name, gap, rest, hparts⟩ := Heading.exists_receiverParts hread
    have hshort : reading.rest.length ≤ line.chars.length := by
      rw [hparts.line_eq, hparts.rest_eq]
      simp only [List.length_append, List.length_cons]
      omega
    dsimp only
    rw [Option.bind_some, h.endLineOf_eq line.index (by omega)]
    cases reading.group? 2 <;> cases reading.group? 3 <;> rfl

theorem receiverMethods_eq (h : probe.Faithful limit) {text : String}
    (hlimit : 1 + text.length ≤ limit) :
    probe.feed.receiverMethods (Document.ofText text) =
      some (Document.ofText text).receiverMethods := by
  have hcount := Document.charCount_le text
  have hsweep : ∀ before lines found, (Document.ofText text).lines = before ++ lines →
      lines.foldlM (probe.feed.stepReceiver (Document.ofText text)) found =
        some (sweep (ReceiverMethod.step (Document.ofText text)) found lines) := by
    intro before lines
    induction lines generalizing before with
    | nil => exact fun _ _ => rfl
    | cons line more ih =>
      intro found hlines
      have hmore : (Document.ofText text).lines = before ++ [line] ++ more := by
        rw [hlines, List.append_assoc, List.singleton_append]
      have hroom : 1 + line.chars.length + charCount more ≤ limit := by
        rw [hlines, charCount_append, charCount_cons] at hcount
        omega
      have hstep : probe.feed.stepReceiver (Document.ofText text) found line =
          some (ReceiverMethod.step (Document.ofText text) found line) := by
        rw [Counter.stepReceiver, ReceiverMethod.step_eq, Document.linesAfter_index hlines,
          h.methodOfLine?_eq hroom]
        split
        · rfl
        · cases ReceiverMethod.ofLine? line more <;> rfl
      rw [List.foldlM_cons, hstep, Option.bind_eq_bind, Option.bind_some,
        ih (before ++ [line]) _ hmore]
      rfl
  exact hsweep [] (Document.ofText text).lines [] rfl

/-- A faithful probe does not change what is found in a text shorter than its limit. -/
theorem outline_eq (h : probe.Faithful limit) {text : String} (lookahead : Nat)
    (hlimit : text.length < limit) :
    probe.outline (Document.ofText text) lookahead =
      some ((Document.ofText text).outline lookahead) := by
  rw [Probe.outline, h.interfaces_eq lookahead (by omega), Option.bind_eq_bind, Option.bind_some,
    h.receiverMethods_eq (by omega)]
  rfl

end Faithful

end Probe

end Wayfinder
