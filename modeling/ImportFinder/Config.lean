import ImportFinder.Environment
import ImportFinder.Path
import ImportFinder.Target
import ImportFinder.Tree.Basic

/-!
# Project configuration

What a project sets for its searches, in a file in the working directory. Every
field may be missing. A list that was never given differs from an empty one, since
the program shows the difference. How the file is written is left to whoever reads
it.

The environment overrides the file, field by field.
-/

namespace ImportFinder

/-- The configuration of a project. -/
structure Config where
  root : Text := []
  mode : Text := []
  format : Text := []
  ignoreFile : Text := []
  ignore : Option (List Text) := none
  extensions : Option (List Text) := none
  /-- The extensions of the files to be scanned for each extension of a
      target. -/
  extensionMap : Option (List (Text × Option (List Text))) := none
  deriving DecidableEq, Repr

namespace Config

/-- The name of the file. -/
def fileName : Text := text ".fir.yaml"

/-- What is wrong with a configuration. -/
def problem (c : Config) : Option Failure :=
  match MatchMode.parse c.mode with
  | .ok _ => none
  | .error f => some f

section

variable (read : Text → Except Text Config) (tree : Tree)

/-- The configuration in a file. -/
def loadFile (path : Text) : Except Failure Config :=
  match tree.read path with
  | .error f => .error (if f.has .notExist then .cause .configNotFound else f)
  | .ok content =>
    match read content with
    | .error why => .error (.because .invalidConfig (path ++ text ": " ++ why))
    | .ok c =>
      match c.problem with
      | some f => .error (.within path f)
      | none => .ok c

/-- The configuration of a directory. -/
def load (dir : Text) : Except Failure Config := loadFile read tree (Path.join dir fileName)

end

/-- A value, or the one that a variable overrides it with. -/
def overridden (env : Environment) (name : String) (value : Text) : Text :=
  match env.get (text name) with
  | [] => value
  | override => override

/-- The configuration with what the environment overrides. -/
def applyEnvironment (env : Environment) (c : Config) : Config :=
  { c with
    mode := overridden env "FIR_MODE" c.mode
    format := overridden env "FIR_FORMAT" c.format
    ignoreFile := overridden env "FIR_IGNORE_FILE" c.ignoreFile
    root := overridden env "FIR_ROOT" c.root }

/-- The extensions of the files to be scanned for a target with an extension. A
    list for all targets comes first. -/
def extensionsFor (c : Config) (extension : Text) : Option (List Text) :=
  match c.extensions with
  | some (e :: more) => some (e :: more)
  | _ =>
    let key := match Text.lower extension with
      | 0x2E :: rest => rest
      | e => e
    if key.isEmpty then none else (List.lookup key (c.extensionMap.getD [])).join

end Config

end ImportFinder
