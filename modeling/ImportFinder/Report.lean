import ImportFinder.Report.Document
import ImportFinder.Report.Json
import ImportFinder.Report.Plain
import ImportFinder.Report.Writer

/-!
# Reports

A result is reported in one of three formats: as text for people, as JSON or as
YAML. On demand only the unused imports are reported, in every format.

Text and JSON are handed to the output as a whole, YAML is left to an encoder. What
the output or the encoder refuses makes the report fail (`Report.render`).
-/

namespace ImportFinder.Report

/-- The formats of a report. -/
inductive Format
  | text
  | json
  | yaml
  deriving DecidableEq, Repr

/-- The word for a format. -/
def Format.name : Format → Text
  | .text => ImportFinder.text "text"
  | .json => ImportFinder.text "json"
  | .yaml => ImportFinder.text "yaml"

/-- The formats in the order in which they are offered. -/
def Format.all : List Format := [.text, .json, .yaml]

/-- The format that a word names. The empty word selects text. -/
def Format.named? (word : Text) : Option Format :=
  if word.isEmpty then some .text else Format.all.find? (·.name == word)

/-- The format that the user names, in any case and with white space around
    it. -/
def Format.parse (s : Text) : Except Failure Format :=
  match Format.named? (Text.lower (Text.trim s)) with
  | some f => .ok f
  | none => .error (.context
      (ImportFinder.text "unknown output format " ++ Text.quoted s ++
        ImportFinder.text " (expected text, json or yaml): ")
      (.cause .invalidConfig) [])

/-- How a result is to be reported. -/
structure Options where
  format : Format := .text
  /-- Only unused imports are reported. -/
  unusedOnly : Bool := false
  palette : Palette := .plain
  /-- A report to be read ends with a summary. -/
  summary : Bool := false

/-- Writes the report of a result. -/
def render (e : Encoder) (w : Writer) (o : Options) (r : Result) : Written :=
  let r := if o.unusedOnly then r.unusedOnly else r
  match o.format with
  | .text => w.write (plain o.palette o.summary r)
  | .json => w.write (Json.render e.stray 0 (Naming.camel.document r) ++ [Text.newline])
  | .yaml => e.write w (Naming.snake.document r)

/-- Writes the report of a result in the format that a word names exactly. -/
def renderNamed (e : Encoder) (w : Writer) (word : Text) (o : Options) (r : Result) : Written :=
  match Format.named? word with
  | some format => render e w { o with format } r
  | none => { failure := some (.context
      (ImportFinder.text "unknown output format " ++ Text.quoted word ++ ImportFinder.text ": ")
      (.cause .invalidConfig) []) }

end ImportFinder.Report
