import ImportFinder.Failure

/-!
# Spinners

A spinner shows that some work is going on. A wheel turns beside the message until
the spinner is told how the work ended, and it shows that from then on. It may be
told again, and the last word counts.

What the wheel is like, and how the parts look on a terminal, is left to whoever
makes the spinner (`Wheel`, `Spinner.Look`).

A spinner that is told of a failure without a reason has nothing to show, so
`Spinner.view` has no answer for it.
-/

namespace ImportFinder

/-- A wheel that turns with time. -/
structure Wheel where
  /-- How far it has turned. -/
  State : Type
  /-- What tells it, or another wheel, that time has passed. -/
  Tick : Type
  /-- Before it has turned. -/
  start : State
  /-- The wheel after a tick, and whether it waits for another one. -/
  turn : State → Tick → State × Bool
  picture : State → Text

/-- How far the work behind a spinner is. -/
inductive Spinner.Status
  | running
  /-- The work is done; its result in one line. -/
  | succeeded (summary : Text)
  /-- The work failed, for a reason if one is known. -/
  | failed (why : Option Failure)
  deriving Repr

/-- A spinner. -/
structure Spinner (w : Wheel) where
  /-- What is being done. -/
  message : Text
  wheel : w.State := w.start
  status : Spinner.Status := .running

namespace Spinner

variable {w : Wheel}

/-- What a spinner is told. -/
inductive Event (w : Wheel)
  /-- Time has passed. -/
  | tick (t : w.Tick)
  /-- The work has ended. -/
  | ended (result : Except (Option Failure) Text)
  /-- Something that does not matter to it. -/
  | other

/-- The status after the work has ended. -/
def Status.ofResult : Except (Option Failure) Text → Status
  | .ok summary => .succeeded summary
  | .error why => .failed why

/-- Whether the work has ended. -/
def Status.isDone : Status → Bool
  | .running => false
  | _ => true

/-- Whether the work has ended well. -/
def Status.isSuccess : Status → Bool
  | .succeeded _ => true
  | _ => false

/-- Why the work failed. -/
def Status.failure? : Status → Option Failure
  | .failed why => why
  | _ => none

/-- The spinner after an event, and whether it waits for the next tick. Its wheel
    turns only while the work is going on. -/
def update (s : Spinner w) : Event w → Spinner w × Bool
  | .ended result => ({ s with status := .ofResult result }, false)
  | .tick t =>
    if s.status.isDone then (s, false)
    else
      let (wheel, waits) := w.turn s.wheel t
      ({ s with wheel }, waits)
  | .other => (s, false)

/-- How the parts of a spinner look on a terminal. -/
structure Look where
  message : Text → Text
  success : Text → Text
  failure : Text → Text

/-- What a spinner shows. -/
def view (look : Look) (s : Spinner w) : Option Text :=
  match s.status with
  | .running => some (w.picture s.wheel ++ Text.blank :: look.message s.message)
  | .succeeded summary => some (look.success (text "✓ " ++ summary))
  | .failed (some why) => some (look.failure (text "✗ " ++ why.message))
  | .failed none => none

end Spinner

end ImportFinder
