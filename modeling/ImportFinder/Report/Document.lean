import ImportFinder.Record
import ImportFinder.Report.Data

/-!
# Results as data

What a structured report says about a result, whatever the notation is. The
notations differ in how the words of a field name are joined, and in what stands
for a list that was never made; `Naming` holds these two decisions.

Fields that may be left out are left out when they are empty. The files that were
merely visited are not part of a report.
-/

namespace ImportFinder.Report

/-- How a notation writes field names and missing lists. -/
structure Naming where
  /-- The field name that consists of some words. -/
  key : List String → Text
  /-- What stands for a list that was never made. -/
  missing : Data

/-- A word with a capital first letter. -/
def capitalized (word : String) : Text :=
  match text word with
  | [] => []
  | b :: rest => (if 0x61 ≤ b && b ≤ 0x7A then b - 0x20 else b) :: rest

/-- Words joined by capital letters, as in `lineNumber`. A list that was never
    made is null. -/
def Naming.camel : Naming where
  key
    | [] => []
    | word :: more => text word ++ more.flatMap capitalized
  missing := .null

/-- Words joined by underscores, as in `line_number`. A list that was never made
    is empty. -/
def Naming.snake : Naming where
  key words := Text.joinWith (text "_") (words.map text)
  missing := .list []

namespace Naming

variable (n : Naming)

/-- A field that is left out when its text is empty. -/
def optional (words : List String) (t : Text) : List (Text × Data) :=
  if t.isEmpty then [] else [(n.key words, .str t)]

/-- A target. -/
def target (t : Target) : Data :=
  .record ((n.key ["name"], .str t.name) :: n.optional ["extension"] t.extension)

/-- A match. -/
def match_ (m : Match) : Data :=
  .record ([(n.key ["line", "number"], .int m.line), (n.key ["content"], .str m.content)] ++
    n.optional ["imported", "name"] m.name ++
    [(n.key ["imported", "name", "count", "on", "line"], .int m.onLine),
     (n.key ["imported", "name", "count", "in", "file"], .int m.inFile),
     (n.key ["is", "unused"], .bool m.unused)])

/-- A file with its matches. -/
def file (f : FileRecord) : Data :=
  .record [(n.key ["path"], .str f.path),
    (n.key ["matches"], match f.listed with
      | some found => .list (found.map n.match_)
      | none => n.missing)]

/-- A path that could not be read. -/
def skip (s : Skip) : Data :=
  .record [(n.key ["path"], .str s.path), (n.key ["error"], .str s.error)]

/-- The paths that could not be read, left out when there are none. -/
def skips (all : List Skip) : List (Text × Data) :=
  if all.isEmpty then [] else [(n.key ["skipped"], .list (all.map n.skip))]

/-- A result. -/
def document (r : Result) : Data :=
  .record ([(n.key ["session", "id"], .str r.sessionId), (n.key ["target"], n.target r.target),
      (n.key ["root"], .str r.root), (n.key ["mode"], .str r.mode.name),
      (n.key ["files"], .list (r.files.map n.file))] ++
    n.skips r.skipped ++
    [(n.key ["total", "files", "visited"], .int r.filesVisited),
     (n.key ["total", "dirs", "visited"], .int r.dirsVisited),
     (n.key ["total", "matches"], .int r.matchCount),
     (n.key ["total", "files", "with", "matches"], .int r.filesWithMatches),
     (n.key ["total", "unused"], .int r.unusedCount)])

end Naming

end ImportFinder.Report
