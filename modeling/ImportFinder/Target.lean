import ImportFinder.Failure
import ImportFinder.Path
import ImportFinder.Text.Lower
import ImportFinder.Text.Quoted
import ImportFinder.Text.Space

/-!
# Targets and match modes

The target of a search is a file name or token, kept as a name and an extension.
It is parsed from an argument such as `src/lib/utils.js`: only the last component
counts, and it is divided at its last dot, unless that is its first byte.

The match mode says how the name is recognised. In word mode any whole word
counts; in every other mode the name has to be a path segment. A mode is kept as
the word it was given by, since reports show it.
-/

namespace ImportFinder

/-- What is searched for. -/
structure Target where
  /-- The token looked for in source text. -/
  name : Text
  /-- The extension without its dot, empty if there is none. -/
  extension : Text := []
  deriving DecidableEq, Repr

namespace Target

/-- A target as the user types it. -/
def render (t : Target) : Text :=
  if t.extension.isEmpty then t.name else t.name ++ Text.dot :: t.extension

/-- The target that an argument names. Blank arguments and those that name a
    directory itself have none. -/
def parse (raw : Text) : Except Failure Target :=
  let raw := Text.trim raw
  if raw.isEmpty then .error (.cause .emptyTarget)
  else
    let base := Path.base raw
    if base = Path.here ∨ base = [Text.slash] then .error (.cause .emptyTarget)
    else match Text.splitLast Text.dot base with
      | some (name, extension) =>
        if name.isEmpty then .ok { name := base } else .ok { name, extension }
      | none => .ok { name := base }

end Target

/-- How the target is recognised, as the word it was given by. -/
structure MatchMode where
  name : Text
  deriving DecidableEq, Repr

namespace MatchMode

/-- No mode was given. -/
def unset : MatchMode := ⟨[]⟩

/-- The target has to follow a path separator. -/
def path : MatchMode := ⟨text "path"⟩

/-- The target may be any whole word. -/
def word : MatchMode := ⟨text "word"⟩

/-- The modes in the order in which they are offered. -/
def all : List MatchMode := [path, word]

/-- Whether whole words count. -/
def isWord (m : MatchMode) : Bool := m == word

/-- The mode, or the default one if none was given. -/
def orDefault (m : MatchMode) : MatchMode := if m = unset then path else m

/-- The mode that the user names, in any case and with white space around it.
    An empty name selects the default. -/
def parse (s : Text) : Except Failure MatchMode :=
  let name := Text.lower (Text.trim s)
  if name.isEmpty ∨ name = path.name then .ok path
  else if name = word.name then .ok word
  else .error (.context
    (text "unknown match mode " ++ Text.quoted s ++ text " (expected " ++ Text.quoted path.name ++
      text " or " ++ Text.quoted word.name ++ text "): ")
    (.cause .invalidConfig) [])

end MatchMode

end ImportFinder
