import ImportFinder.Config
import ImportFinder.DotEnv
import ImportFinder.Record
import ImportFinder.Report

/-!
# Planning a search

A plan is what the arguments, the flags, the environment and the configuration of
the project come to. For every setting the first source that gives a value counts:
the flag, the environment, the configuration, the default. A flag or a variable
with an empty value gives none.

The ignore entries of the configuration and of the flags are put together.

The two files that are read have notations of their own, for each of which there is
a reader (`Readers`).
-/

namespace ImportFinder

/-- What the flags of the command line say. -/
structure Flags where
  extensions : List Text := []
  ignore : List Text := []
  mode : Text := []
  format : Text := []
  ignoreFile : Text := []
  config : Text := []
  unusedOnly : Bool := false
  deriving DecidableEq, Repr

/-- A request, and how its result is to be reported. -/
structure Plan where
  request : Request
  format : Report.Format
  unusedOnly : Bool
  deriving DecidableEq, Repr

/-- The readers of the files that a plan is made from. -/
structure Readers where
  /-- The variables that the working directory's file defines. -/
  vars : Text → Except Failure Variables
  /-- The configuration that a file gives, or what is wrong with it. -/
  config : Text → Except Text Config

namespace Plan

/-- The first text that is not empty. -/
def firstNonEmpty (values : List Text) : Text := (values.find? (!·.isEmpty)).getD []

/-- The directory that is searched by default. -/
def defaultRoot : Text := text "./src"

/-- The ignore file that is read by default. -/
def defaultIgnoreFile : Text := text ".gitignore"

/-- The configuration of the project: that in the named file, which has to exist,
    or that of the working directory, which need not. -/
def loadConfig (read : Text → Except Text Config) (tree : Tree) (work named : Text) :
    Except Failure Config :=
  if named.isEmpty then
    match Config.load read tree work with
    | .ok c => .ok c
    | .error f =>
      if f.has .configNotFound then .ok {}
      else .error (.within (text "failed to load " ++ Config.fileName) f)
  else match Config.loadFile read tree (Path.resolve work named) with
    | .ok c => .ok c
    | .error f =>
      if f.has .configNotFound then
        .error (.because .invalidConfig (named ++ text ": " ++ f.message))
      else .error f

/-- The plan for a target and a root, if one is given, once the configuration is
    known and the environment has been applied to it. -/
def ofConfig (work : Text) (c : Config) (flags : Flags) (target : Text) (root : Option Text) :
    Except Failure Plan := do
  let target ← Target.parse target
  let root := root.getD (firstNonEmpty [c.root, defaultRoot])
  let mode ← MatchMode.parse (firstNonEmpty [flags.mode, c.mode])
  let format ← Report.Format.parse (firstNonEmpty [flags.format, c.format])
  let ignoreFile := firstNonEmpty [flags.ignoreFile, c.ignoreFile, defaultIgnoreFile]
  let extensions :=
    if flags.extensions.isEmpty then (c.extensionsFor target.extension).getD []
    else flags.extensions
  return {
    request := {
      target
      root := Path.resolve work root
      ignoreFile := Path.resolve work ignoreFile
      ignore := c.ignore.getD [] ++ flags.ignore
      extensions
      mode }
    format
    unusedOnly := flags.unusedOnly }

/-- The plan for a target and a root, if one is given, and the environment with
    the variables that the working directory's file adds. -/
def build (readers : Readers) (tree : Tree) (work : Text) (env : Environment) (flags : Flags)
    (target : Text) (root : Option Text) : Except Failure (Plan × Environment) := do
  let env ← match DotEnv.load readers.vars tree env work with
    | .ok env => pure env
    | .error f => throw (.because .invalidConfig f.message)
  let c ← loadConfig readers.config tree work flags.config
  let plan ← ofConfig work (c.applyEnvironment env) flags target root
  return (plan, env)

end Plan

end ImportFinder
