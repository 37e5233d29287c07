import ImportFinder.Environment

/-!
# Terminals

Whether someone watches the program at a terminal. Then reports are coloured and a
spinner turns while the search runs; otherwise the output is plain and ends with a
summary. The environment can ask for plain output.
-/

namespace ImportFinder

/-- Which of the two outputs of the program are terminals. -/
structure Terminal where
  stdout : Bool := false
  stderr : Bool := false
  deriving DecidableEq, Repr

/-- How the program deals with its user. -/
inductive Interaction
  | plain
  | interactive
  deriving DecidableEq, Repr

/-- The number of an interaction. -/
def Interaction.number : Interaction → Nat
  | .plain => 0
  | .interactive => 1

/-- Whether the environment asks for plain output. -/
def Environment.wantsPlain (env : Environment) : Bool :=
  env.get (text "FIR_NON_INTERACTIVE") == text "1" ||
    !(env.get (text "CI")).isEmpty || !(env.get (text "NO_COLOR")).isEmpty

/-- How the program deals with its user: both outputs have to be terminals, since
    results go to the one and the spinner to the other. -/
def Terminal.interaction (t : Terminal) (env : Environment) : Interaction :=
  if env.wantsPlain then .plain
  else if t.stdout && t.stderr then .interactive
  else .plain

end ImportFinder
