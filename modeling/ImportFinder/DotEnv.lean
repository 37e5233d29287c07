import ImportFinder.Environment
import ImportFinder.Path
import ImportFinder.Tree.Basic

/-!
# Files of environment variables

A directory may hold a file that defines variables. They are added to the environment,
but for those that are set already.

How such a file is written is left to whoever reads it.
-/

namespace ImportFinder.DotEnv

/-- The name of the file. -/
def fileName : Text := text ".env"

section

variable (read : Text → Except Failure Variables) (tree : Tree)

/-- The variables that the file of a directory defines, none if there is no file. -/
def definitions (dir : Text) : Except Failure Variables :=
  let path := Path.join dir fileName
  let missing := match tree.stat path with
    | .error f => f.has .notExist
    | .ok _ => false
  if missing then .ok .empty else tree.read path >>= read

/-- The environment with the variables of a directory's file added. Variables that are
    set already stay as they are. -/
def load (env : Environment) (dir : Text) : Except Failure Environment :=
  match definitions read tree dir with
  | .ok vars => .ok (env.setDefaults vars)
  | .error f => .error (.within (text "failed to load " ++ Path.join dir fileName) f)

end

end ImportFinder.DotEnv
