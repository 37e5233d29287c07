import ImportFinder.Matching.Binding
import ImportFinder.Matching.Line
import ImportFinder.Record

/-!
# Scanning a file

`scan` gives the record of a file from its content: one match for every line
that references the target. Most files do not hold the target at all, so the
whole content is looked through once before it is divided into lines; `scanLines`
is the scan without this shortcut.
-/

namespace ImportFinder

/-- The match of a line that references the target. -/
def matchOfLine (content : Text) (number : Nat) (line : Text) : Match :=
  let found : Match := { line := number, content := Text.trim line }
  match Matching.importedName? line with
  | none => found
  | some name =>
    let usage := Matching.usage name line content
    { found with name, onLine := usage.onLine, inFile := usage.inFile, unused := usage.unused }

/-- The matches of numbered lines. -/
def matchesOfLines (mode : MatchMode) (name content : Text) (lines : List (Text × Nat)) :
    List Match :=
  lines.filterMap fun (line, index) =>
    if Matching.isReference mode name line then some (matchOfLine content (index + 1) line)
    else none

/-- The matches of a file, found by looking at every line. -/
def scanLines (mode : MatchMode) (name content : Text) : List Match :=
  matchesOfLines mode name content (Text.lines content).zipIdx

/-- The record of a file with given content. -/
def scan (mode : MatchMode) (target : Target) (path content : Text) : FileRecord :=
  if Matching.hasTarget mode target.name content then
    match scanLines mode target.name content with
    | [] => { path }
    | found => { path, listed := some found }
  else { path }

end ImportFinder
