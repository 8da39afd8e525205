import Wayfinder.Document

/-!
# Sweeps over a document

A scanner is a step function on a state, applied to the lines of a document in
order.  `sweep` runs it to the end.  `sweepUnless` looks at a cancellation signal
before each line and gives up, without a result, at the first line before which
the signal is raised.

A signal is seen only through the values observed at its successive checks, so it
is a function from the number of the check to what was observed.
-/

namespace Wayfinder

/-- What is observed of a cancellation request at each check, numbered from zero. -/
abbrev Signal := Nat → Bool

namespace Signal

/-- A signal that is never raised. -/
def silent : Signal := fun _ => false

/-- A signal that shows the same value at every check. -/
def constant (raised : Bool) : Signal := fun _ => raised

end Signal

/-- A scan was given up before the line was read. -/
structure Cancelled where
  line : Nat
deriving Repr, DecidableEq

/-- The words for a scan that was given up. -/
def Cancelled.message (cancelled : Cancelled) : String :=
  "scan cancelled at line " ++ toString cancelled.line

variable {σ : Type}

/-- The state after all lines. -/
def sweep (step : σ → Line → σ) (state : σ) (lines : List Line) : σ :=
  lines.foldl step state

/-- The state after all lines, unless the signal is raised at a check.  The check before the
first line has number `check`. -/
def sweepUnless (step : σ → Line → σ) (signal : Signal) :
    Nat → σ → List Line → Except Cancelled σ
  | _, state, [] => .ok state
  | check, state, line :: more =>
      if signal check then .error ⟨line.index⟩
      else sweepUnless step signal (check + 1) (step state line) more

end Wayfinder
