import ImportFinder.Spinner

/-!
# Work behind a spinner

A program that runs some work while a spinner turns. It ends when the work does, or
when the user presses a key to quit. What it comes to is read off its last state
(`Progress.result`): the failure of the work, or an interruption if the work had not
ended.

What happens to the program, and in which order, is up to the terminal and its user
(`Progress.Runner`). They do as they like, but nobody tells of the end of the work but
the work itself (`Progress.Told`).
-/

namespace ImportFinder

/-- A key, or characters typed together, by name. -/
structure Key where
  name : Text
  /-- Whether it was pressed together with Alt. -/
  alt : Bool := false
  deriving DecidableEq, Repr

/-- The keys that end the program. -/
def Key.quitting : List Text := [text "q", text "esc", text "ctrl+c"]

/-- Whether a key ends the program. -/
def Key.isQuit (k : Key) : Bool := !k.alt && quitting.contains k.name

/-- Work: how it ends, and its result in one line if it ends well. -/
abbrev Work := Except Failure Text

namespace Progress

variable {wheel : Wheel}

/-- The failure of the work, if it fails. -/
def failure? : Work → Option Failure
  | .ok _ => none
  | .error f => some f

/-- What happens to the program. -/
inductive Event (wheel : Wheel)
  | key (k : Key)
  /-- Something that the spinner is told. -/
  | spinner (e : Spinner.Event wheel)

/-- What the program asks for next. -/
inductive Next
  | nothing
  /-- The first tick, and to run the work. -/
  | start
  | tick
  | quit
  deriving DecidableEq, Repr

/-- The event that tells of the end of the work. -/
def ended (w : Work) : Event wheel := .spinner (.ended (w.mapError some))

/-- The state of the program before anything has happened. -/
def start (message : Text) : Spinner wheel × Next := ({ message }, .start)

/-- The state after an event, and what is asked for next. -/
def update (s : Spinner wheel) : Event wheel → Spinner wheel × Next
  | .key k => (s, if k.isQuit then .quit else .nothing)
  | .spinner (.ended result) => ((s.update (.ended result)).1, .quit)
  | .spinner e =>
    let (s, waits) := s.update e
    (s, if waits then .tick else .nothing)

/-- The state after some events. -/
def run (s : Spinner wheel) (events : List (Event wheel)) : Spinner wheel :=
  events.foldl (fun s e => (update s e).1) s

/-- What the program shows. -/
def view (look : Spinner.Look) (s : Spinner wheel) : Option Text :=
  (s.view look).map (· ++ [Text.newline])

/-- What the program comes to, if it ends in a state. -/
def result (s : Spinner wheel) : Option Failure :=
  if s.status.isDone then s.status.failure? else some (.cause .interrupted)

/-! ### At a terminal -/

/-- Nothing is told about the end of the work but what it came to. How often that is
    told, and when, is left open. -/
def Told (w : Work) (events : List (Event wheel)) : Prop :=
  ∀ result, Event.spinner (.ended result) ∈ events → result = w.mapError some

/-- What became of the program that ran some work. -/
structure History (wheel : Wheel) (w : Work) where
  /-- What happened to it, up to its end. -/
  events : List (Event wheel)
  told : Told w events
  /-- Why the terminal gave up, if it did. -/
  problem : Option Failure := none
  /-- What was left on the error output. -/
  screen : Text := []

/-- What the program came to: a terminal that gives up comes before everything
    else. -/
def History.failure? {w : Work} (h : History wheel w) (message : Text) : Option Failure :=
  h.problem.or (result (run (start message).1 h.events))

/-- What runs the program at a terminal. -/
structure Runner where
  wheel : Wheel
  /-- What becomes of the program with a message for its spinner, for some work and
      what that logs. -/
  history : (message log : Text) → (w : Work) → History wheel w

end Progress

end ImportFinder
