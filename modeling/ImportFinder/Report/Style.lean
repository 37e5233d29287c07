import ImportFinder.Text.Basic
import ImportFinder.Text.Utf8

/-!
# Styles

How the terminal shows a piece of text. A style is a list of codes; a terminal
with colours gets them around every line. Whatever the terminal can do, a styled
text has blanks instead of tabulators and is a block: all its lines are padded to
the width of the widest.
-/

namespace ImportFinder.Style

/-- The range of characters from `first` to `last`. -/
abbrev Range := Nat × Nat

/-- The characters that take no column: controls, and marks that are drawn over
    the character before them. -/
def narrow : List Range :=
  [(0x00, 0x1F), (0x7F, 0x9F), (0xAD, 0xAD), (0x300, 0x36F), (0x483, 0x489), (0x591, 0x5BD),
   (0x610, 0x61A), (0x64B, 0x65F), (0x200B, 0x200F), (0x202A, 0x202E), (0x2028, 0x2029),
   (0x2060, 0x2064), (0x20D0, 0x20F0), (0xFE00, 0xFE0F), (0xFE20, 0xFE2F), (0xFEFF, 0xFEFF),
   (0xE0100, 0xE01EF)]

/-- The characters that take two columns. -/
def wide : List Range :=
  [(0x1100, 0x115F), (0x231A, 0x231B), (0x2329, 0x232A), (0x23E9, 0x23EC), (0x23F0, 0x23F0),
   (0x23F3, 0x23F3), (0x25FD, 0x25FE), (0x2614, 0x2615), (0x2648, 0x2653), (0x267F, 0x267F),
   (0x2693, 0x2693), (0x26A1, 0x26A1), (0x26AA, 0x26AB), (0x26BD, 0x26BE), (0x26C4, 0x26C5),
   (0x26CE, 0x26CE), (0x26D4, 0x26D4), (0x26EA, 0x26EA), (0x26F2, 0x26F3), (0x26F5, 0x26F5),
   (0x26FA, 0x26FA), (0x26FD, 0x26FD), (0x2705, 0x2705), (0x270A, 0x270B), (0x2728, 0x2728),
   (0x274C, 0x274C), (0x274E, 0x274E), (0x2753, 0x2755), (0x2757, 0x2757), (0x2795, 0x2797),
   (0x27B0, 0x27B0), (0x27BF, 0x27BF), (0x2B1B, 0x2B1C), (0x2B50, 0x2B50), (0x2B55, 0x2B55),
   (0x2E80, 0x303E), (0x3041, 0x33FF), (0x3400, 0x4DBF), (0x4E00, 0x9FFF), (0xA000, 0xA4CF),
   (0xA960, 0xA97F), (0xAC00, 0xD7A3), (0xF900, 0xFAFF), (0xFE10, 0xFE19), (0xFE30, 0xFE6F),
   (0xFF01, 0xFF60), (0xFFE0, 0xFFE6), (0x1F004, 0x1F004), (0x1F0CF, 0x1F0CF),
   (0x1F18E, 0x1F18E), (0x1F191, 0x1F19A), (0x1F1E6, 0x1F1FF), (0x1F200, 0x1F320),
   (0x1F32D, 0x1F335), (0x1F337, 0x1F37C), (0x1F37E, 0x1F393), (0x1F3A0, 0x1F3CA),
   (0x1F3CF, 0x1F3D3), (0x1F3E0, 0x1F3F0), (0x1F3F4, 0x1F3F4), (0x1F3F8, 0x1F43E),
   (0x1F440, 0x1F440), (0x1F442, 0x1F4FC), (0x1F4FF, 0x1F53D), (0x1F54B, 0x1F54E),
   (0x1F550, 0x1F567), (0x1F57A, 0x1F57A), (0x1F595, 0x1F596), (0x1F5A4, 0x1F5A4),
   (0x1F5FB, 0x1F64F), (0x1F680, 0x1F6C5), (0x1F6CC, 0x1F6CC), (0x1F6D0, 0x1F6D2),
   (0x1F6D5, 0x1F6D7), (0x1F6DC, 0x1F6DF), (0x1F6EB, 0x1F6EC), (0x1F6F4, 0x1F6FC),
   (0x1F7E0, 0x1F7EB), (0x1F7F0, 0x1F7F0), (0x1F90C, 0x1F93A), (0x1F93C, 0x1F945),
   (0x1F947, 0x1F9FF), (0x1FA70, 0x1FAFF), (0x20000, 0x2FFFD), (0x30000, 0x3FFFD)]

/-- Whether a character lies in one of some ranges. -/
def within (ranges : List Range) (c : Char) : Bool :=
  ranges.any fun (first, last) => first ≤ c.toNat && c.toNat ≤ last

/-- The columns that a character takes. -/
def columns (c : Char) : Nat := if within narrow c then 0 else if within wide c then 2 else 1

/-- The columns that a line takes. -/
def width (t : Text) : Nat := (Utf8.chars t).foldr (fun c n => columns c + n) 0

/-- A text with four blanks instead of every tabulator, and plain line ends. -/
def plainBlanks (t : Text) : Text :=
  Text.dropCarriageReturns (Text.replaceByte Text.tab (text "    ") t)

/-- Lines drawn by `draw` and padded to a common width. -/
def block (draw : Text → Text) (lines : List Text) : Text :=
  match lines with
  | [line] => draw line
  | lines =>
    let widest := (lines.map width).foldl max 0
    Text.joinWith [Text.newline] (lines.map fun line =>
      draw line ++ List.replicate (widest - width line) Text.blank)

/-- A line between the codes of a style. -/
def colored (codes : String) (line : Text) : Text :=
  text "\x1b[" ++ text codes ++ text "m" ++ line ++ text "\x1b[0m"

/-- A text in a style, on a terminal with or without colours. -/
def render (colors : Bool) (codes : String) (t : Text) : Text :=
  block (if colors then colored codes else id) (Text.lines (plainBlanks t))

end ImportFinder.Style
