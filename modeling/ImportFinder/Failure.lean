import ImportFinder.Text.Basic

/-!
# Failures

A failure is a tree. Its leaves are the causes that the library distinguishes,
faults reported by the file system, and plain messages; its inner nodes put a
message around a failure, or join several. What a failure says (`message`) and
what it is (`has`) are both read off the tree, so a failure keeps its kind
whatever is written around it.

The exit code of the program (`exitCode`) and the outcome of a search
(`outcome`) are the two classifications: a missing search root comes first, then
an empty target, then a bad configuration. What carries none of these causes is
misuse of the command line if its message says so.
-/

namespace ImportFinder

/-- The causes that callers distinguish. -/
inductive Cause
  /-- Bad input of the caller. -/
  | userInput
  /-- The search target has no name. -/
  | emptyTarget
  /-- The search root does not exist or is no directory. -/
  | rootNotFound
  /-- The configuration cannot be used. -/
  | invalidConfig
  /-- There is no configuration file. -/
  | configNotFound
  /-- The user quit while the work was still running. -/
  | interrupted
  /-- A file does not exist. -/
  | notExist
  deriving DecidableEq, Repr

/-- The words for a cause. -/
def Cause.message : Cause → Text
  | .userInput => text "invalid input"
  | .emptyTarget => text "search target is empty"
  | .rootNotFound => text "search root not found"
  | .invalidConfig => text "invalid configuration"
  | .configNotFound => text "config file not found"
  | .interrupted => text "interrupted"
  | .notExist => text "file does not exist"

/-- Whether a cause counts as another one: a missing target and a missing root
    are bad input. -/
def Cause.countsAs (c d : Cause) : Bool :=
  c == d || (d == .userInput && (c == .emptyTarget || c == .rootNotFound))

/-- The faults of a file system. -/
inductive Fault
  | notFound
  | notDirectory
  | isDirectory
  | tooManyLinks
  | nameTooLong
  | invalidName
  deriving DecidableEq, Repr

/-- The words for a fault. -/
def Fault.message : Fault → Text
  | .notFound => text "no such file or directory"
  | .notDirectory => text "not a directory"
  | .isDirectory => text "is a directory"
  | .tooManyLinks => text "too many levels of symbolic links"
  | .nameTooLong => text "file name too long"
  | .invalidName => text "invalid argument"

/-- What went wrong. -/
inductive Failure
  /-- One of the known causes. -/
  | cause (c : Cause)
  /-- A message and nothing more. -/
  | plain (message : Text)
  /-- An operation of the file system failed on a path. -/
  | system (operation path : Text) (fault : Fault)
  /-- A failure with text before and after it. -/
  | context (before : Text) (inner : Failure) (after : Text)
  /-- Several failures at once. -/
  | joined (all : List Failure)
  deriving Repr

namespace Failure

mutual

/-- The text of a failure; joined failures stand on lines of their own. -/
def message : Failure → Text
  | .cause c => c.message
  | .plain m => m
  | .system operation path fault =>
    operation ++ Text.blank :: path ++ text ": " ++ fault.message
  | .context before inner after => before ++ inner.message ++ after
  | .joined all => messages all

/-- The texts of several failures, on lines of their own. -/
def messages : List Failure → Text
  | [] => []
  | [f] => f.message
  | f :: g :: more => f.message ++ Text.newline :: messages (g :: more)

end

mutual

/-- Whether a cause occurs in a failure. A path that is not found counts as a
    file that does not exist. -/
def has (c : Cause) : Failure → Bool
  | .cause d => d.countsAs c
  | .plain _ => false
  | .system _ _ fault => fault == .notFound && c == .notExist
  | .context _ inner _ => has c inner
  | .joined all => anyHas c all

/-- Whether a cause occurs in one of several failures. -/
def anyHas (c : Cause) : List Failure → Bool
  | [] => false
  | f :: more => has c f || anyHas c more

end

/-- A failure with a label before it. -/
def within (label : Text) (f : Failure) : Failure := .context (label ++ text ": ") f []

/-- A cause with details behind it. -/
def because (c : Cause) (details : Text) : Failure := .context [] (.cause c) (text ": " ++ details)

/-- Several failures as one, if there are any. -/
def join? : List Failure → Option Failure
  | [] => none
  | all => some (.joined all)

end Failure

/-- The outcome of a search as a tag. -/
inductive Outcome
  | success
  | rootNotFound
  | emptyTarget
  | failed
  deriving DecidableEq, Repr

/-- The word for an outcome. -/
def Outcome.name : Outcome → Text
  | .success => text "Success"
  | .rootNotFound => text "RootNotFound"
  | .emptyTarget => text "EmptyTarget"
  | .failed => text "Failed"

/-- The outcome of a search that ended with a failure, or without one. -/
def outcome : Option Failure → Outcome
  | none => .success
  | some f =>
    if f.has .rootNotFound then .rootNotFound
    else if f.has .emptyTarget then .emptyTarget
    else .failed

/-- The exit codes of the program. -/
inductive ExitCode
  | success
  | general
  | usage
  | config
  | rootNotFound
  | emptyTarget
  deriving DecidableEq, Repr

/-- The number of an exit code. -/
def ExitCode.number : ExitCode → Nat
  | .success => 0
  | .general => 1
  | .usage => 2
  | .config => 10
  | .rootNotFound => 20
  | .emptyTarget => 21

/-- The phrases by which misuse of the command line is told from its message. -/
def usagePhrases : List Text :=
  [text "unknown flag", text "unknown shorthand flag", text "unknown command", text "accepts ",
   text "missing required argument", text "required flag", text "invalid argument",
   text "flag needs an argument"]

/-- The exit code after a failure, or without one. -/
def exitCode : Option Failure → ExitCode
  | none => .success
  | some f =>
    if f.has .rootNotFound then .rootNotFound
    else if f.has .emptyTarget then .emptyTarget
    else if f.has .invalidConfig then .config
    else if usagePhrases.any (Text.occursIn · f.message) then .usage
    else .general

end ImportFinder
