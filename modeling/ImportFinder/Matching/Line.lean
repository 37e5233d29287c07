import ImportFinder.Matching.Occurrence
import ImportFinder.Target

/-!
# Reference lines

When a single line references the target. In path mode it must not be a comment
line, must hold the name as a path segment, and must look like an import: by one
of the words `import`, `from` and `require`, or by a relative path. In word mode
it must hold the name as a word, together with the word `import` or `require`.
-/

namespace ImportFinder.Matching

/-- Whether a line starts with `//`, behind blanks and tabulators. -/
def isComment (line : Text) : Bool :=
  (text "//").isPrefixOf (line.dropWhile fun b => b == Text.blank || b == Text.tab)

/-- Whether a line holds a word. -/
def hasWord (word line : Text) : Bool := occurs .word word line

/-- Whether a line looks like an import. -/
def hasImportCue (line : Text) : Bool :=
  [text "import", text "from", text "require"].any (hasWord · line) ||
    [text "./", text "../"].any (Text.occursIn · line)

/-- The boundary that a mode asks for. -/
def boundary (mode : MatchMode) : Boundary := if mode.isWord then .word else .segment

/-- Whether a text holds the name of the target. -/
def hasTarget (mode : MatchMode) (name t : Text) : Bool := occurs (boundary mode) name t

/-- Where a text holds the name of the target. -/
def targetSpans (mode : MatchMode) (name t : Text) : List Span :=
  occurrences (boundary mode) name t

/-- Whether a line references the target. -/
def isReference (mode : MatchMode) (name line : Text) : Bool :=
  if mode.isWord then
    hasWord name line && (hasWord (text "import") line || hasWord (text "require") line)
  else !isComment line && occurs .segment name line && hasImportCue line

end ImportFinder.Matching
