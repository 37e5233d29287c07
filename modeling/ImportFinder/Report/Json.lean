import ImportFinder.Report.Data
import ImportFinder.Text.Numeral
import ImportFinder.Text.Utf8

/-!
# Data as JSON

JSON with one item or field on a line, indented by two blanks for every level.
Empty lists and records stay on their line.

In a string the usual controls have a letter, and the other ones below the blank
are written in hexadecimal. So are `<`, `>` and `&`, which lets the output stand
in a web page, and the two Unicode line separators.

A byte that belongs to no character is replaced. Encoders stand for it by the
replacement character, but they differ in whether they spell that out in hexadecimal.
So what is written in its place is left open (`stray` below).
-/

namespace ImportFinder.Json

/-- A character in hexadecimal. -/
def escaped (c : Char) : Text := text "\\u" ++ Text.hex Text.digit 4 c.toNat

/-- A character inside a string. -/
def character (c : Char) : Text :=
  if c = '"' then text "\\\""
  else if c = '\\' then text "\\\\"
  else if c = '\n' then text "\\n"
  else if c = '\r' then text "\\r"
  else if c = '\t' then text "\\t"
  else if c.toNat = 0x08 then text "\\b"
  else if c.toNat = 0x0C then text "\\f"
  else if c.toNat < 0x20 ∨ c = '<' ∨ c = '>' ∨ c = '&' ∨ c.toNat = 0x2028 ∨ c.toNat = 0x2029 then
    escaped c
  else Utf8.encodeChar c

section

variable (stray : Text)

/-- An item of a text inside a string. -/
def piece : Utf8.Item → Text
  | .char c => character c
  | .stray _ => stray

/-- A text as a string. -/
def string (t : Text) : Text :=
  text "\"" ++ (Utf8.decode t).flatMap (piece stray) ++ text "\""

/-- A new line at a level. -/
def line (level : Nat) : Text := Text.newline :: List.replicate (2 * level) Text.blank

/-- The opening brace. -/
def openBrace : Text := [0x7B]

/-- The closing brace. -/
def closeBrace : Text := [0x7D]

mutual

/-- A value, where the lines of its parts stand one level deeper. -/
def render (level : Nat) : Data → Text
  | .null => text "null"
  | .bool true => text "true"
  | .bool false => text "false"
  | .int n => Text.ofInt n
  | .str t => string stray t
  | .list [] => text "[]"
  | .list (d :: ds) => text "[" ++ renderItems (level + 1) (d :: ds) ++ line level ++ text "]"
  | .record [] => openBrace ++ closeBrace
  | .record (f :: fs) =>
    openBrace ++ renderFields (level + 1) (f :: fs) ++ line level ++ closeBrace

/-- The items of a list, each on a line of its own. -/
def renderItems (level : Nat) : List Data → Text
  | [] => []
  | [d] => line level ++ render level d
  | d :: e :: more => line level ++ render level d ++ text "," ++ renderItems level (e :: more)

/-- The fields of a record, each on a line of its own. -/
def renderFields (level : Nat) : List (Text × Data) → Text
  | [] => []
  | [(key, d)] => line level ++ string stray key ++ text ": " ++ render level d
  | (key, d) :: f :: more =>
    line level ++ string stray key ++ text ": " ++ render level d ++ text "," ++
      renderFields level (f :: more)

end

end

end ImportFinder.Json
