import ImportFinder.Text.Numeral

/-!
# Logs

A log is a list of messages, each with a level. `Log.Entry.console` is how the
console shows a message: verbose and error messages are marked, and verbose ones
are shown only on demand.
-/

namespace ImportFinder.Log

/-- The levels of messages. -/
inductive Level
  | verbose
  | info
  | error
  deriving DecidableEq, Repr

/-- The word for a level. -/
def Level.name : Level → Text
  | .verbose => text "verbose"
  | .info => text "info"
  | .error => text "error"

/-- The mark of a level on the console. -/
def Level.mark : Level → Text
  | .verbose => text "[VERBOSE] "
  | .info => []
  | .error => text "[ERROR] "

/-- A message with its level. -/
structure Entry where
  level : Level
  message : Text
  deriving DecidableEq, Repr

/-- Whether the console shows messages of a level. -/
def Level.isShown (verbose : Bool) (level : Level) : Bool := verbose || level != .verbose

/-- A message on the console. -/
def Entry.console (verbose : Bool) (e : Entry) : Text :=
  if e.level.isShown verbose then e.level.mark ++ e.message ++ [Text.newline] else []

/-- The number of messages of a level. -/
def count (level : Level) (log : List Entry) : Nat := log.countP (·.level == level)

/-- Whether a message of a level contains a text. -/
def mentions (level : Level) (t : Text) (log : List Entry) : Bool :=
  log.any fun e => e.level == level && Text.occursIn t e.message

end ImportFinder.Log
