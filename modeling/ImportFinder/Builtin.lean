import ImportFinder.CommandLine
import ImportFinder.Config.Document
import ImportFinder.DotEnv.Statement
import ImportFinder.Report.Yaml
import ImportFinder.Terminal.Look

/-!
# What the program brings along

The parts of a host that do not depend on where the program runs: the readers of its
files, the encoder of its reports, and what its terminal shows. The command line does
not depend on them, so that others can take their place.
-/

namespace ImportFinder

/-- The readers of environment variables and of YAML. -/
def Readers.builtin : Readers where
  vars := DotEnv.parse
  config := Config.parse

/-- A terminal with colours, at which work is done at once. What is left of the spinner
    is what it shows in the end. -/
def Progress.Runner.builtin : Runner where
  wheel := .dots true
  history message log w :=
    let events := [ended w]
    { events
      told := by simp [Told, events, ended]
      screen := log ++ (view (.styled true) (run (start message).1 events)).getD [] }

/-- A host with these parts. -/
def CommandLine.Host.builtin (tree : Tree) (work : Except Failure Text) : Host where
  tree
  work
  readers := .builtin
  runner := .builtin
  palette := .styled true
  encoder := Yaml.encoder

end ImportFinder
