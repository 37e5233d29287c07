import ImportFinder.Report.Writer
import ImportFinder.Yaml.Scalar

/-!
# Data as YAML

YAML in block style. A field or item stands on a line of its own; the fields of
a record and the items of a list below a field are indented by two blanks more
than it. The first field of a record in a list stands behind the dash.
-/

namespace ImportFinder.Yaml

/-- A scalar value, up to the end of its line; nothing for other values. -/
def scalarOf? (indent : Nat) : Data → Option Text
  | .null => some (text "null\n")
  | .bool true => some (text "true\n")
  | .bool false => some (text "false\n")
  | .int n => some (Text.ofInt n ++ [Text.newline])
  | .str t => some (scalar indent t)
  | .list [] => some (text "[]\n")
  | .record [] => some [0x7B, 0x7D, Text.newline]
  | _ => none

mutual

/-- The value of a field or item that stands at a column: a scalar on the line
    itself, anything else on lines of its own, two columns to the right. -/
def renderValue (column : Nat) : Data → Text
  | .list (d :: ds) => Text.newline :: renderItems (column + 2) (d :: ds)
  | .record (f :: fs) => Text.newline :: renderFields (column + 2) (f :: fs)
  | d => text " " ++ (scalarOf? (column + 2) d).getD []

/-- An item behind its dash. Its first line goes on behind the dash. -/
def renderItem (column : Nat) : Data → Text
  | .list (d :: ds) => (renderItems (column + 2) (d :: ds)).drop (column + 2)
  | .record (f :: fs) => (renderFields (column + 2) (f :: fs)).drop (column + 2)
  | d => (scalarOf? (column + 2) d).getD []

/-- The items of a list. -/
def renderItems (column : Nat) : List Data → Text
  | [] => []
  | d :: more => indentation column ++ text "- " ++ renderItem column d ++ renderItems column more

/-- The fields of a record. -/
def renderFields (column : Nat) : List (Text × Data) → Text
  | [] => []
  | (key, d) :: more =>
    indentation column ++ key ++ text ":" ++ renderValue column d ++ renderFields column more

end

/-- A document. -/
def render : Data → Text
  | .record (f :: fs) => renderFields 0 (f :: fs)
  | .list (d :: ds) => renderItems 0 (d :: ds)
  | d => (scalarOf? 2 d).getD []

/-- What is told of an output that refuses a document. -/
def writeError (f : Failure) : Failure := .plain (text "yaml: write error: " ++ f.message)

/-- The encoder that writes a document at once and has nothing to close. -/
def encoder : Report.Encoder where
  encode w d := ⟨render d, (w (render d)).map writeError⟩
  close _ _ := {}

end ImportFinder.Yaml
