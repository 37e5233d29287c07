import ImportFinder.Matching.Line
import ImportFinder.Record

/-!
# Reports to be read

The report for people. Matches are grouped by file: a file with a single match is
headed by a location that editors can jump to, any other one by its path. Each
match shows its line number, the line with the target highlighted, and the
identifier if it is unused. A summary may close the report.
-/

namespace ImportFinder.Report

/-- How the parts of a report are shown. -/
structure Palette where
  path : Text → Text
  number : Text → Text
  target : Text → Text
  unused : Text → Text
  summary : Text → Text

/-- Everything is shown as it is. -/
def Palette.plain : Palette := ⟨id, id, id, id, id⟩

/-- A text that starts at `offset`, with the pieces at some spans shown by
    `show_`. The spans are in order and do not overlap. -/
def markSpans (show_ : Text → Text) (offset : Nat) : List Matching.Span → Text → Text
  | [], t => t
  | span :: more, t =>
    t.take (span.start - offset) ++
      show_ ((t.drop (span.start - offset)).take (span.stop - span.start)) ++
      markSpans show_ span.stop more (t.drop (span.stop - offset))

/-- A line with every occurrence of the target shown by `show_`. -/
def highlight (show_ : Text → Text) (mode : MatchMode) (name content : Text) : Text :=
  markSpans show_ 0 (Matching.targetSpans mode name content) content

/-- The number of columns that line numbers are padded to. -/
def numberColumns : Nat := 4

/-- The line of a match. -/
def matchLine (p : Palette) (mode : MatchMode) (name : Text) (m : Match) : Text :=
  let number := Text.ofInt m.line
  text "  " ++ p.number (number ++ text ":") ++
    List.replicate (numberColumns - number.length + 2) Text.blank ++
    highlight p.target mode name m.content ++
    (if m.unused then text "  " ++ p.unused (text "(unused: " ++ m.name ++ text ")") else []) ++
    [Text.newline]

/-- The heading of a file. -/
def heading (f : FileRecord) : Text :=
  match f.hits with
  | [m] => f.location m
  | _ => f.path ++ text ":"

/-- The block of a file. -/
def fileBlock (p : Palette) (mode : MatchMode) (name : Text) (f : FileRecord) : Text :=
  text "\n" ++ p.path (heading f) ++ text "\n" ++ f.hits.flatMap (matchLine p mode name)

/-- The report of a result. -/
def plain (p : Palette) (summary : Bool) (r : Result) : Text :=
  r.files.flatMap (fileBlock p r.mode r.target.name) ++
    if summary then text "\n" ++ p.summary r.summary ++ text "\n" else []

end ImportFinder.Report
