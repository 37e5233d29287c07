import ImportFinder.Target
import ImportFinder.Text.Numeral

/-!
# Requests and results

What a search is asked and what it answers. A `Match` is one line that
references the target, a `FileRecord` the matches of one file in line order, and
a `Result` the records of a whole search with the paths it passed and could not
read, and its totals.

The totals of a result are fields of their own: a report shows them as they are
given. That they agree with the lists is a property of the results of a search.
-/

namespace ImportFinder

/-- One line that references the target. -/
structure Match where
  /-- The number of the line, counted from one. -/
  line : Int
  /-- The line without the white space around it. -/
  content : Text
  /-- The identifier that the line imports, empty if it imports none. -/
  name : Text := []
  /-- How often the identifier occurs on the line. -/
  onLine : Int := 0
  /-- How often the identifier occurs in the file. -/
  inFile : Int := 0
  /-- Whether the identifier occurs on no other line. -/
  unused : Bool := false
  deriving DecidableEq, Repr

/-- Whether a line imports an identifier. -/
def Match.hasName (m : Match) : Bool := !m.name.isEmpty

/-- The matches of one file. -/
structure FileRecord where
  path : Text
  /-- The matches in line order; `none` if no list was ever made, which a
      report may show in another way than an empty list. -/
  listed : Option (List Match) := none
  deriving DecidableEq, Repr

namespace FileRecord

/-- The matches of a file in line order. -/
def hits (f : FileRecord) : List Match := f.listed.getD []

/-- Where a match stands, in a form that editors can jump to. -/
def location (f : FileRecord) (m : Match) : Text := f.path ++ text "#" ++ Text.ofInt m.line

/-- The number of matches whose identifier is unused. -/
def unusedCount (f : FileRecord) : Nat := f.hits.countP (·.unused)

end FileRecord

/-- A path that could not be read, and why. -/
structure Skip where
  path : Text
  error : Text
  deriving DecidableEq, Repr

/-- What is to be searched. -/
structure Request where
  target : Target
  /-- The directory to be searched. -/
  root : Text
  /-- The file with the project's ignore entries, empty if there is none. -/
  ignoreFile : Text := []
  /-- Further ignore entries. -/
  ignore : List Text := []
  /-- The extensions of the files to be scanned; all files if there are none. -/
  extensions : List Text := []
  mode : MatchMode := .unset
  deriving DecidableEq, Repr

/-- What is wrong with a request before anything is looked at. -/
def Request.problems (r : Request) : List Failure :=
  (if (Text.trim r.target.name).isEmpty then [.cause .emptyTarget] else []) ++
  (if r.mode ≠ .unset ∧ r.mode ≠ .path ∧ r.mode ≠ .word then
    [.context (text "unknown match mode " ++ Text.quoted r.mode.name ++ text ": ")
      (.cause .invalidConfig) []]
  else [])

/-- The failure of a request that cannot be searched for. -/
def Request.check (r : Request) : Option Failure := Failure.join? r.problems

/-- What a search found. -/
structure Result where
  sessionId : Text
  target : Target
  root : Text
  mode : MatchMode
  /-- The files with at least one match, in the order in which they were
      reached. -/
  files : List FileRecord := []
  /-- Every file that was reached, in that order. -/
  visited : List Text := []
  /-- The directories and then the files that could not be read. -/
  skipped : List Skip := []
  filesVisited : Int := 0
  dirsVisited : Int := 0
  matchCount : Int := 0
  filesWithMatches : Int := 0
  unusedCount : Int := 0
  deriving DecidableEq, Repr

/-- A result in one line. -/
def Result.summary (r : Result) : Text :=
  Text.ofInt r.filesWithMatches ++ text " files - " ++ Text.ofInt r.matchCount ++ text " results"

namespace Result

/-- A record with nothing but the matches whose identifier is unused, if there
    are any. -/
def unusedRecord? (f : FileRecord) : Option FileRecord :=
  match f.hits.filter (·.unused) with
  | [] => none
  | kept => some { path := f.path, listed := some kept }

/-- A result with nothing but the unused imports. Files without any are left
    out, and the totals are those of what is left. -/
def unusedOnly (r : Result) : Result :=
  let files := r.files.filterMap unusedRecord?
  let total := (files.flatMap (·.hits)).length
  { r with
    files
    matchCount := total
    filesWithMatches := files.length
    unusedCount := total }

end Result

end ImportFinder
