import Wayfinder.Cancel
import Wayfinder.Outline
import Wayfinder.Proofs.Numbering

/-!
# Cancelled scans

A scan that can be cancelled looks at a signal before each line, once for interfaces and
once more for receivers.  It gives either everything or nothing, whenever the signal is
raised.

* `Signal.firstRaised?` is the first of some checks at which a signal is raised.
* `sweepUnless_eq`: a sweep is given up at the line of that check, or runs to its end.
* `Watched` is a scan that notes where it looks, and `Document.observe_watchOutline` says where
  the scan of a whole document looks.
* `Document.outlineUnless_allOrNothing`: what a cancelled scan gives.
* `Flags.isCancelled_performAll_iff`: a flag is raised by any token that shares it, and by no
  other act; so a new token is cancelled only through itself or its clones.
* `Document.outlineUnless_token_iff`: as a flag is never lowered, a scan with a token gives
  everything unless the flag is raised at its last check.
-/

namespace Wayfinder

/-! ## The first check at which a signal is raised -/

namespace Signal

/-- The first of the first `count` checks at which a signal is raised. -/
def firstRaised? (signal : Signal) (count : Nat) : Option Nat :=
  (List.range count).find? signal

/-- What is observed from a check on. -/
def behind (signal : Signal) (check : Nat) : Signal :=
  fun later => signal (check + later)

/-- How many of `count` checks are made, if none is made behind one at which the signal is
raised. -/
def looks (signal : Signal) (count : Nat) : Nat :=
  ((signal.firstRaised? count).map (· + 1)).getD count

theorem behind_zero (signal : Signal) : signal.behind 0 = signal := by
  funext later
  simp [behind]

theorem behind_behind (signal : Signal) (first second : Nat) :
    (signal.behind first).behind second = signal.behind (first + second) := by
  funext later
  simp [behind, Nat.add_assoc]

theorem firstRaised?_add (signal : Signal) (first second : Nat) :
    signal.firstRaised? (first + second) =
      (signal.firstRaised? first).or
        (((signal.behind first).firstRaised? second).map (first + ·)) := by
  unfold firstRaised?
  rw [List.range_add, List.find?_append, List.find?_map]
  rfl

theorem firstRaised?_succ (signal : Signal) (count : Nat) :
    signal.firstRaised? (count + 1) =
      if signal 0 then some 0 else ((signal.behind 1).firstRaised? count).map (1 + ·) := by
  rw [Nat.add_comm, firstRaised?_add]
  cases hraised : signal 0 <;> simp [firstRaised?, hraised]

theorem looks_succ (signal : Signal) (count : Nat) :
    signal.looks (count + 1) = if signal 0 then 1 else (signal.behind 1).looks count + 1 := by
  unfold looks
  rw [firstRaised?_succ]
  by_cases hraised : signal 0 = true
  · simp [hraised]
  · rw [if_neg hraised, if_neg hraised]
    cases (signal.behind 1).firstRaised? count <;> simp [Nat.add_comm]

theorem looks_of_some {signal : Signal} {count check : Nat}
    (h : signal.firstRaised? count = some check) : signal.looks count = check + 1 := by
  rw [looks, h]
  rfl

theorem looks_of_none {signal : Signal} {count : Nat} (h : signal.firstRaised? count = none) :
    signal.looks count = count := by
  rw [looks, h]
  rfl

theorem looks_add_of_some {signal : Signal} {first check : Nat}
    (h : signal.firstRaised? first = some check) (second : Nat) :
    signal.looks (first + second) = check + 1 := by
  refine looks_of_some ?_
  rw [firstRaised?_add, h]
  rfl

theorem looks_add_of_none {signal : Signal} {first : Nat} (h : signal.firstRaised? first = none)
    (second : Nat) :
    signal.looks (first + second) = first + (signal.behind first).looks second := by
  unfold looks
  rw [firstRaised?_add, h]
  cases (signal.behind first).firstRaised? second <;> simp [Nat.add_assoc]

theorem firstRaised?_eq_none_iff {signal : Signal} {count : Nat} :
    signal.firstRaised? count = none ↔ ∀ check < count, signal check = false := by
  simp [firstRaised?]

theorem firstRaised?_eq_some_iff {signal : Signal} {count check : Nat} :
    signal.firstRaised? count = some check ↔
      check < count ∧ signal check = true ∧ ∀ earlier < check, signal earlier = false := by
  unfold firstRaised?
  rw [List.find?_range_eq_some]
  simp only [List.mem_range, Bool.not_eq_eq_eq_not, Bool.not_true]
  constructor
  · rintro ⟨hraised, hcheck, hearlier⟩
    exact ⟨hcheck, hraised, hearlier⟩
  · rintro ⟨hcheck, hraised, hearlier⟩
    exact ⟨hraised, hcheck, hearlier⟩

end Signal

/-! ## Sweeps -/

section Sweep

variable {σ : Type} {step : σ → Line → σ} {signal : Signal}

/-- A sweep over lines with consecutive numbers is given up at the line of the first check at
which the signal is raised.  If there is none, it is the sweep that is never given up. -/
theorem sweepUnless_eq {lines : List Line} {start : Nat}
    (hlines : lines.map Line.index = List.range' start lines.length) (check : Nat) (state : σ) :
    sweepUnless step signal check state lines =
      match (signal.behind check).firstRaised? lines.length with
      | none => .ok (sweep step state lines)
      | some raised => .error ⟨start + raised⟩ := by
  induction lines generalizing start check state with
  | nil => rfl
  | cons line more ih =>
    rw [List.map_cons, List.length_cons, List.range'_succ] at hlines
    obtain ⟨hline, hmore⟩ := List.cons.inj hlines
    rw [sweepUnless, List.length_cons, Signal.firstRaised?_succ, Signal.behind_behind]
    by_cases hraised : signal check = true
    · have hnow : signal.behind check 0 = true := hraised
      simp [hraised, hnow, hline]
    · have hnow : ¬ signal.behind check 0 = true := hraised
      rw [if_neg hraised, if_neg hnow, ih hmore]
      cases (signal.behind (check + 1)).firstRaised? more.length with
      | none => rfl
      | some raised => simp [Nat.add_assoc]

/-! ## Where a scan looks -/

/-- One look at a signal: the side that is scanned, and the line before which the scan looks. -/
structure Look where
  side : Side
  line : Nat
deriving Repr, DecidableEq

/-- A scan that notes, in order, where it looks at a signal. -/
abbrev Watched := ExceptT Cancelled (StateM (List Look))

/-- What a scan gives, and all looks, if there were some before it. -/
def Watched.observe {α : Type} (scan : Watched α) (looked : List Look) :
    Except Cancelled α × List Look :=
  scan.run.run looked

/-- Looks at a signal before a line.  The number of the check is the number of looks before
it. -/
def Signal.look (signal : Signal) (side : Side) (line : Line) : Watched Unit :=
  ExceptT.mk fun looked =>
    (if signal looked.length then .error ⟨line.index⟩ else .ok (),
      looked ++ [⟨side, line.index⟩])

/-- The state after all lines, with a look at the signal before each of them. -/
def watchSweep (side : Side) (step : σ → Line → σ) (signal : Signal) (state : σ)
    (lines : List Line) : Watched σ :=
  lines.foldlM (fun state line => do signal.look side line; return step state line) state

theorem Watched.observe_pure {α : Type} (value : α) (looked : List Look) :
    Watched.observe (pure value) looked = (.ok value, looked) := rfl

/-- One scan after another: the second goes on where the first has looked, unless the first was
given up. -/
theorem Watched.observe_bind {α β : Type} (first : Watched α) (next : α → Watched β)
    (looked : List Look) :
    Watched.observe (first >>= next) looked =
      match first.observe looked with
      | (.ok value, looked) => (next value).observe looked
      | (.error cancelled, looked) => (.error cancelled, looked) := by
  show (match first looked with
    | (result, looked) => ExceptT.bindCont next result looked) = _
  unfold Watched.observe
  cases hfirst : first looked with
  | mk result looked =>
    have hrun : StateT.run (ExceptT.run first) _ = (result, looked) := hfirst
    rw [hrun]
    cases result <;> rfl

theorem Signal.observe_look (side : Side) (line : Line) (looked : List Look) :
    (signal.look side line).observe looked =
      (if signal looked.length then .error ⟨line.index⟩ else .ok (),
        looked ++ [⟨side, line.index⟩]) :=
  rfl

/-- A sweep looks before each line until the signal is raised, and gives what `sweepUnless`
gives. -/
theorem observe_watchSweep (side : Side) (state : σ) (lines : List Line) (looked : List Look) :
    (watchSweep side step signal state lines).observe looked =
      (sweepUnless step signal looked.length state lines,
        looked ++ ((lines.map Line.index).map (Look.mk side)).take
          ((signal.behind looked.length).looks lines.length)) := by
  induction lines generalizing state looked with
  | nil => simp [watchSweep, Watched.observe_pure, sweepUnless]
  | cons line more ih =>
    have hbefore : (looked ++ [Look.mk side line.index]).length = looked.length + 1 := by simp
    rw [watchSweep, List.foldlM_cons, Watched.observe_bind, Watched.observe_bind,
      Signal.observe_look, sweepUnless]
    by_cases hraised : signal looked.length = true
    · have hnow : signal.behind looked.length 0 = true := hraised
      simp [hraised, Signal.looks_succ, hnow]
    · have hnow : ¬ signal.behind looked.length 0 = true := hraised
      rw [if_neg hraised, if_neg hraised]
      show (watchSweep side step signal (step state line) more).observe _ = _
      rw [ih, hbefore, List.length_cons, Signal.looks_succ, if_neg hnow]
      simp [Signal.behind_behind]

end Sweep

/-! ## Documents -/

namespace Document

/-- Everything declared in a document, found by a scan that notes where it looks at the
signal. -/
def watchOutline (document : Document) (lookahead : Nat) (signal : Signal) : Watched Outline := do
  let scanner ←
    watchSweep .interface (Scanner.step lookahead) signal Scanner.initial document.lines
  let receiverMethods ←
    watchSweep .receiver (ReceiverMethod.step document) signal [] document.lines
  return { interfaces := scanner.finish document.size, receiverMethods := receiverMethods }

/-- The looks of a scan that is not given up: before each line for interfaces, and then before
each line for receivers. -/
def looks (document : Document) : List Look :=
  (List.range document.size).map (Look.mk .interface) ++
    (List.range document.size).map (Look.mk .receiver)

variable {text : String} {lookahead : Nat} {signal : Signal}

/-- A pass over a document is given up at the line whose number is that of the check, counted
from the start of the pass. -/
theorem sweepUnless_lines {σ : Type} (step : σ → Line → σ) (state : σ) (check : Nat) :
    sweepUnless step signal check state (ofText text).lines =
      match (signal.behind check).firstRaised? (ofText text).size with
      | none => .ok (sweep step state (ofText text).lines)
      | some raised => .error ⟨raised⟩ := by
  have hlines : (ofText text).lines.map Line.index =
      List.range' 0 (ofText text).lines.length := by
    rw [ofText_map_index, List.range_eq_range']
    rfl
  rw [sweepUnless_eq hlines]
  simp only [Nat.zero_add]
  rfl

/-- The scan of a document has two checks for each line, in two passes. -/
theorem outlineUnless_eq (text : String) (lookahead : Nat) (signal : Signal) :
    (ofText text).outlineUnless lookahead signal =
      match signal.firstRaised? (2 * (ofText text).size) with
      | none => .ok ((ofText text).outline lookahead)
      | some check => .error ⟨check % (ofText text).size⟩ := by
  unfold outlineUnless interfacesUnless receiverMethodsUnless
  rw [sweepUnless_lines, sweepUnless_lines, Signal.behind_zero, Nat.two_mul,
    Signal.firstRaised?_add]
  cases hfirst : signal.firstRaised? (ofText text).size with
  | some check =>
    have hlt : check < (ofText text).size := (Signal.firstRaised?_eq_some_iff.1 hfirst).1
    show Except.error (Cancelled.mk check) = Except.error ⟨check % (ofText text).size⟩
    rw [Nat.mod_eq_of_lt hlt]
  | none =>
    cases hsecond : (signal.behind (ofText text).size).firstRaised? (ofText text).size with
    | none => rfl
    | some check =>
      have hlt : check < (ofText text).size := (Signal.firstRaised?_eq_some_iff.1 hsecond).1
      show Except.error (Cancelled.mk check) =
        Except.error ⟨((ofText text).size + check) % (ofText text).size⟩
      rw [Nat.add_mod_left, Nat.mod_eq_of_lt hlt]

/-- The scan of a document looks before every line, for interfaces first and for receivers
then, until the signal is raised. -/
theorem observe_watchOutline (text : String) (lookahead : Nat) (signal : Signal) :
    ((ofText text).watchOutline lookahead signal).observe [] =
      ((ofText text).outlineUnless lookahead signal,
        (ofText text).looks.take (signal.looks (2 * (ofText text).size))) := by
  have hlength : (ofText text).lines.length = (ofText text).size := rfl
  have hpass : ∀ side, ((List.range (ofText text).size).map (Look.mk side)).length =
      (ofText text).size := by simp
  unfold watchOutline outlineUnless interfacesUnless receiverMethodsUnless looks
  rw [Watched.observe_bind, observe_watchSweep, List.length_nil, List.nil_append,
    ofText_map_index, hlength, Signal.behind_zero, Nat.two_mul]
  generalize hfirst : sweepUnless (Scanner.step lookahead) signal 0 Scanner.initial
    (ofText text).lines = first
  rw [sweepUnless_lines, Signal.behind_zero] at hfirst
  cases hraised : signal.firstRaised? (ofText text).size with
  | some check =>
    -- The first pass is given up, and the second does not start.
    have hlt : check < (ofText text).size := (Signal.firstRaised?_eq_some_iff.1 hraised).1
    rw [hraised] at hfirst
    rw [Signal.looks_add_of_some hraised, Signal.looks_of_some hraised,
      List.take_append_of_le_length (by rw [hpass]; exact hlt), ← hfirst]
    rfl
  | none =>
    rw [hraised] at hfirst
    rw [Signal.looks_add_of_none hraised, Signal.looks_of_none hraised, List.take_append,
      List.take_of_length_le (Nat.le_of_eq (hpass _)), hpass, Nat.add_sub_cancel_left,
      List.take_of_length_le (by rw [hpass]; omega), ← hfirst]
    show Watched.observe (_ >>= _) (((List.range (ofText text).size).map _)) = _
    rw [Watched.observe_bind, observe_watchSweep, ofText_map_index, hpass, hlength]
    cases sweepUnless (ReceiverMethod.step (ofText text)) signal (ofText text).size []
      (ofText text).lines <;> rfl

/-- Cancellation is all or nothing.  A scan gives everything that is declared if the signal is
raised at none of the two checks of each line, and otherwise nothing but the line of the first
check at which it is raised.  It looks before each line for interfaces, then before each line
for receivers, and no further than that check.  A document without lines has no checks. -/
theorem outlineUnless_allOrNothing (text : String) (lookahead : Nat) (signal : Signal) :
    (∀ outline, (ofText text).outlineUnless lookahead signal = .ok outline ↔
      (∀ check < 2 * (ofText text).size, signal check = false) ∧
        outline = (ofText text).outline lookahead) ∧
    (∀ cancelled, (ofText text).outlineUnless lookahead signal = .error cancelled ↔
      ∃ check < 2 * (ofText text).size, signal check = true ∧
        (∀ earlier < check, signal earlier = false) ∧
        cancelled = ⟨check % (ofText text).size⟩) ∧
    ((ofText text).watchOutline lookahead signal).observe [] =
      ((ofText text).outlineUnless lookahead signal,
        (ofText text).looks.take (signal.looks (2 * (ofText text).size))) ∧
    ((ofText text).size = 0 → (ofText text).outlineUnless lookahead (.constant true) =
      .ok ((ofText text).outline lookahead)) := by
  refine ⟨?_, ?_, observe_watchOutline text lookahead signal, ?_⟩
  · intro outline
    rw [outlineUnless_eq, ← Signal.firstRaised?_eq_none_iff]
    cases signal.firstRaised? (2 * (ofText text).size) with
    | none => simp [eq_comm]
    | some check => simp
  · intro cancelled
    rw [outlineUnless_eq]
    cases hraised : signal.firstRaised? (2 * (ofText text).size) with
    | none =>
      have hsilent := Signal.firstRaised?_eq_none_iff.1 hraised
      simp only [reduceCtorEq, false_iff]
      rintro ⟨check, hlt, hcheck, _⟩
      rw [hsilent check hlt] at hcheck
      cases hcheck
    | some check =>
      obtain ⟨hlt, hcheck, hearlier⟩ := Signal.firstRaised?_eq_some_iff.1 hraised
      constructor
      · intro h
        exact ⟨check, hlt, hcheck, hearlier, (Except.error.inj h).symm⟩
      · rintro ⟨other, hother, hraisedThere, hsilent, rfl⟩
        have hsame := Signal.firstRaised?_eq_some_iff.2 ⟨hother, hraisedThere, hsilent⟩
        rw [Option.some.inj (hraised.symm.trans hsame)]
  · intro hempty
    rw [outlineUnless_eq, hempty]
    rfl

end Document

/-! ## Tokens -/

namespace Flags

variable {flags : Flags} {token : Token}

/-- The flags after some acts. -/
def performAll (flags : Flags) (acts : List Act) : Flags :=
  acts.foldl perform flags

/-- The flag of a token has been made. -/
def Holds (flags : Flags) (token : Token) : Prop :=
  token.flag < flags.raised.length

theorem holds_create_nextToken (flags : Flags) : flags.create.Holds flags.nextToken := by
  simp [Holds, create, nextToken]

/-- A new flag is not raised, and no other flag changes. -/
theorem isCancelled_create (flags : Flags) (token : Token) :
    flags.create.isCancelled token = flags.isCancelled token := by
  unfold isCancelled create
  rw [List.getElem?_append]
  split
  · rfl
  · next hnew =>
    rw [List.getElem?_eq_none (Nat.not_lt.1 hnew), List.getElem?_singleton]
    split <;> rfl

theorem not_isCancelled_nextToken (flags : Flags) :
    flags.create.isCancelled flags.nextToken = false := by
  rw [isCancelled_create, isCancelled, nextToken, List.getElem?_eq_none (Nat.le_refl _)]
  rfl

/-- Cancelling a token raises the flag that it shares with its clones, and no other. -/
theorem isCancelled_cancel_iff (h : flags.Holds token) (other : Token) :
    (flags.cancel other).isCancelled token = true ↔
      flags.isCancelled token = true ∨ other.flag = token.flag := by
  unfold isCancelled cancel
  rw [List.getElem?_set]
  by_cases hsame : other.flag = token.flag
  · have hflag : token.flag < flags.raised.length := h
    simp [hsame, hflag]
  · simp [hsame]

theorem Holds.perform (h : flags.Holds token) (act : Act) : (flags.perform act).Holds token := by
  cases act with
  | create =>
    show token.flag < (flags.raised ++ [false]).length
    rw [List.length_append]
    exact Nat.lt_add_right _ h
  | cancel other =>
    show token.flag < (flags.raised.set other.flag true).length
    rw [List.length_set]
    exact h

theorem Holds.performAll (h : flags.Holds token) (acts : List Act) :
    (flags.performAll acts).Holds token := by
  induction acts generalizing flags with
  | nil => exact h
  | cons act acts ih => exact ih (h.perform act)

/-- A flag is raised after some acts if it was raised before them, or one of them cancels a token
that shares it. -/
theorem isCancelled_performAll_iff (h : flags.Holds token) (acts : List Act) :
    (flags.performAll acts).isCancelled token = true ↔
      flags.isCancelled token = true ∨
        ∃ other : Token, .cancel other ∈ acts ∧ other.flag = token.flag := by
  induction acts generalizing flags with
  | nil => simp [performAll]
  | cons act acts ih =>
    show ((flags.perform act).performAll acts).isCancelled token = true ↔ _
    rw [ih (h.perform act)]
    cases act with
    | create =>
      show flags.create.isCancelled token = true ∨ _ ↔ _
      rw [isCancelled_create]
      simp
    | cancel first =>
      show (flags.cancel first).isCancelled token = true ∨ _ ↔ _
      rw [isCancelled_cancel_iff h, or_assoc]
      simp [or_and_right, exists_or]

/-- A new token is cancelled only through itself or its clones. -/
theorem isCancelled_nextToken_iff (flags : Flags) (acts : List Act) :
    (flags.create.performAll acts).isCancelled flags.nextToken = true ↔
      ∃ other : Token, .cancel other ∈ acts ∧ other.flag = flags.nextToken.flag := by
  rw [isCancelled_performAll_iff (holds_create_nextToken flags), not_isCancelled_nextToken]
  exact or_iff_right Bool.false_ne_true

end Flags

/-- Flags at successive checks, between which acts are performed. -/
def IsHistory (history : Nat → Flags) : Prop :=
  ∀ check, ∃ acts, history (check + 1) = (history check).performAll acts

namespace IsHistory

variable {history : Nat → Flags} {token : Token}

theorem holds (hhistory : IsHistory history) (h : (history 0).Holds token) (check : Nat) :
    (history check).Holds token := by
  induction check with
  | zero => exact h
  | succ check ih =>
    obtain ⟨acts, hacts⟩ := hhistory check
    rw [hacts]
    exact ih.performAll acts

/-- A flag that was raised is not lowered. -/
theorem signal_mono (hhistory : IsHistory history) (h : (history 0).Holds token)
    {check later : Nat} (hle : check ≤ later) (hraised : token.signal history check = true) :
    token.signal history later = true := by
  induction hle with
  | refl => exact hraised
  | step _ ih =>
    rename_i later _
    obtain ⟨acts, hacts⟩ := hhistory later
    show (history (later + 1)).isCancelled token = true
    rw [hacts, Flags.isCancelled_performAll_iff (hhistory.holds h later)]
    exact .inl ih

end IsHistory

/-- A scan with a token gives everything that is declared, unless the flag of the token is raised
at the last check. -/
theorem Document.outlineUnless_token_iff {history : Nat → Flags} {token : Token}
    (hhistory : IsHistory history) (h : (history 0).Holds token) (text : String)
    (lookahead : Nat) (outline : Outline) :
    (ofText text).outlineUnless lookahead (token.signal history) = .ok outline ↔
      (∀ last, last + 1 = 2 * (ofText text).size → (history last).isCancelled token = false) ∧
        outline = (ofText text).outline lookahead := by
  rw [outlineUnless_eq]
  cases hfirst : (token.signal history).firstRaised? (2 * (ofText text).size) with
  | none =>
    have hsilent := Signal.firstRaised?_eq_none_iff.1 hfirst
    constructor
    · intro heq
      exact ⟨fun last hlast => hsilent last (hlast ▸ Nat.lt_succ_self last),
        (Except.ok.inj heq).symm⟩
    · rintro ⟨-, rfl⟩
      rfl
  | some check =>
    obtain ⟨hlt, hraised, -⟩ := Signal.firstRaised?_eq_some_iff.1 hfirst
    refine ⟨nofun, ?_⟩
    rintro ⟨hlast, -⟩
    have hlater := hhistory.signal_mono h (Nat.le_sub_one_of_lt hlt) hraised
    have hfalse := hlast (2 * (ofText text).size - 1) (Nat.sub_add_cancel (by omega))
    exact absurd (hfalse.symm.trans hlater) Bool.false_ne_true

end Wayfinder
