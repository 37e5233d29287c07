import ImportFinder.CommandLine.Completion
import ImportFinder.Progress
import ImportFinder.Search
import ImportFinder.Terminal

/-!
# The command line

A run of the program: its arguments select a command, and the command writes to the
two outputs and may fail. The exit code is that of the failure (`exitCode`).

Results go to the standard output. Messages of the log go to the error output, as
does the failure, with which a run ends.

A run takes place on a host (`CommandLine.Host`), whose parts may fail at any time: it
may not know the working directory, its terminal may give up while a search is
running, and its output may refuse a report. Each of these failures is that of the
run.

A run whose search does not end has no output. As a search is given a number of steps,
so is a run.
-/

namespace ImportFinder.CommandLine

/-- Which build of the program runs. -/
structure Build where
  version : Text := text "dev"
  commit : Text := text "unknown"
  date : Text := text "unknown"
  platform : Text := text "linux/amd64"
  deriving DecidableEq, Repr

/-- What a run finds around itself. -/
structure Host where
  tree : Tree
  /-- The working directory, if it is known. -/
  work : Except Failure Text
  env : Environment := {}
  terminal : Terminal := {}
  /-- Random bytes, to name a session. -/
  random : List UInt8 := []
  build : Build := {}
  readers : Readers
  /-- What runs a search behind a spinner. -/
  runner : Progress.Runner
  /-- How the parts of a report look on a terminal. -/
  palette : Report.Palette
  encoder : Report.Encoder
  /-- The standard output, as far as reports are written to it. -/
  stdout : Report.Writer := fun _ => none

/-- What a run writes, and the failure it ends with. -/
structure Output where
  stdout : Text := []
  stderr : Text := []
  failure : Option Failure := none
  deriving Repr

/-- The exit code of a run. -/
def Output.exitCode (o : Output) : ExitCode := ImportFinder.exitCode o.failure

/-- A run that fails, after it has written to the error output. -/
def fail (stderr : Text) (f : Failure) : Output :=
  { stderr := stderr ++ text "Error: " ++ f.message ++ [Text.newline], failure := some f }

/-! ### Version and help -/

/-- The version in one line, to be read by other programs. -/
def Build.line (b : Build) : Text :=
  Command.program ++ Text.blank :: b.version ++ text " (" ++ b.commit ++ text ", " ++ b.date ++
    text ") " ++ b.platform ++ [Text.newline]

/-- Shows the version. -/
def version (b : Build) : Output :=
  { stdout := b.line, stderr := text "File import reference finder\n" }

/-- A line of help for a flag or a command. -/
def helpLine (title description : Text) : Text :=
  text "  " ++ title ++ text "  " ++ description ++ [Text.newline]

/-- Shows what a command is for, the commands below it and its flags. -/
def help (c : Command) : Output :=
  { stdout := c.description ++ text "\n\nUsage:\n  " ++ c.path ++ text "\n" ++
      c.shown.flatMap (fun d => helpLine d.name d.description) ++
      c.flags.flatMap (fun f => helpLine f.title f.description) }

/-! ### Completion -/

/-- Whether the environment wants completions to be described. -/
def wantsDescriptions (env : Environment) : Bool :=
  let wish := Plan.firstNonEmpty
    [env.get (text "FIR_COMPLETION_DESCRIPTIONS"), env.get (text "COBRA_COMPLETION_DESCRIPTIONS")]
  match Given.switch? wish with
  | .ok wish => wish
  | .error _ => true

/-- Shows what may be offered for the last of some words. -/
def complete (env : Environment) (descriptions : Bool) (words : List Text) : Output :=
  let answer := Completion.answer words
  let described := Completion.describes words descriptions && wantsDescriptions env
  let problem := match answer.problem with
    | some problem => text "[Debug] [Error] " ++ problem ++ [Text.newline]
    | none => []
  { stdout := answer.offers.flatMap (·.line described) ++ text ":" ++
      Text.ofNat answer.directive.number ++ [Text.newline]
    stderr := problem ++ text "Completion ended with directive: " ++ answer.directive.name ++
      [Text.newline] }

/-! ### Searching -/

/-- The message with which a planned search starts. -/
def planNote (r : Request) : Log.Entry :=
  .ofTemplate .verbose (text "Target: %s, root: %s, mode: %s, ignore file: %s")
    [.str r.target.render, .str r.root, .str r.mode.name, .str r.ignoreFile]

/-- What is shown while a search runs. -/
def searchMessage (work : Text) (r : Request) : Text :=
  text "Searching " ++ r.target.render ++ text " in " ++ Path.display work r.root

/-- How the result of a plan is reported to a user. -/
def reportOptions (palette : Report.Palette) (plan : Plan) : Interaction → Report.Options
  | .plain => { format := plan.format, unusedOnly := plan.unusedOnly, summary := true }
  | .interactive => { format := plan.format, unusedOnly := plan.unusedOnly, palette }

/-- The result of a plan in one line. -/
def planSummary (plan : Plan) (r : Result) : Text :=
  if plan.unusedOnly then r.unusedOnly.summary else r.summary

/-- The search of a plan as work to be waited for. -/
def planWork (plan : Plan) (found : Except Failure Search.Report) : Work :=
  found.map fun s => planSummary plan s.result

/-- What the console shows of the log of a search. -/
def searchLog (verbose : Bool) : Except Failure Search.Report → Text
  | .ok s => s.log.flatMap (·.console verbose)
  | .error _ => []

/-- Waits for some work that logs a text, at a terminal behind a spinner. Gives what is
    left on the error output and the failure, if there is one. -/
def await (runner : Progress.Runner) (message log : Text) (w : Work) :
    Interaction → Text × Option Failure
  | .plain => (log, Progress.failure? w)
  | .interactive =>
    let history := runner.history message log w
    (history.screen, history.failure? message)

/-- Reports what was found. -/
def reportFound (h : Host) (stderr : Text) (plan : Plan) (interaction : Interaction)
    (r : Result) : Output :=
  let report := Report.render h.encoder h.stdout (reportOptions h.palette plan interaction) r
  match report.failure with
  | none => { stdout := report.content, stderr }
  | some f => { fail stderr f with stdout := report.content }

/-- Runs a plan, given what its search comes to. What went wrong while it was waited for
    comes first. -/
def runPlan (h : Host) (work : Text) (verbose : Bool) (plan : Plan) (interaction : Interaction)
    (found : Except Failure Search.Report) : Output :=
  let note := (planNote plan.request).console verbose
  let (screen, failure) := await h.runner (searchMessage work plan.request)
    (searchLog verbose found) (planWork plan found) interaction
  match failure.elim found .error with
  | .error f => fail (note ++ screen) f
  | .ok s => reportFound h (note ++ screen) plan interaction s.result

/-- Plans and runs the search for a target below a root, if one is given. -/
def runSearch (h : Host) (steps : Nat) (g : Given) (target : Text) (root : Option Text) :
    Option Output :=
  match h.work with
  | .error f => some (fail [] (.within (text "failed to get working directory") f))
  | .ok work =>
    match Plan.build h.readers h.tree work h.env g.flags target root with
    | .error f => some (fail [] f)
    | .ok (plan, env) =>
      (Search.search h.tree (sessionName h.random) steps plan.request).map
        (runPlan h work g.verbose plan (h.terminal.interaction env))

/-! ### Invocations -/

/-- What the arguments ask for. -/
inductive Invocation
  | version
  | help (c : Command)
  /-- The arguments make no sense. -/
  | misuse (f : Failure)
  /-- A command with flags and arguments that suit it. -/
  | command (c : Command) (g : Given)
  deriving Repr

namespace Invocation

/-- The invocation of a command whose flags have been read. -/
def ofGiven (c : Command) (g : Given) : Invocation :=
  if g.help || c == .completion then .help c
  else match c.argsProblem g.args with
    | some f => .misuse f
    | none => .command c g

/-- The invocation that arguments stand for. -/
def ofArgs (args : List Text) : Invocation :=
  if args.head? = some (text "--version") then .version
  else
    let (c, args) := Command.find args
    if c.readsFlags then
      match Given.ofArgs c.flags args with
      | .ok g => ofGiven c g
      | .error .help => .help c
      | .error stop => .misuse stop.failure
    else ofGiven c { args }

end Invocation

/-- Runs a command with arguments that suit it. -/
def execute (h : Host) (steps : Nat) (c : Command) (g : Given) : Option Output :=
  match c, g.args with
  | .search, target :: more => runSearch h steps g target more.head?
  | .complete descriptions, words => some (complete h.env descriptions words)
  | .version, _ => some (version h.build)
  | .help, args => some (help (Command.find args).1)
  | c, _ => some (help c)

/-- Runs an invocation. -/
def invoke (h : Host) (steps : Nat) : Invocation → Option Output
  | .version => some (version h.build)
  | .help c => some (help c)
  | .misuse f => some (fail [] f)
  | .command c g => execute h steps c g

/-- Runs the program. There is no output only when the steps run out. -/
def run (h : Host) (steps : Nat) (args : List Text) : Option Output :=
  invoke h steps (.ofArgs args)

end ImportFinder.CommandLine
