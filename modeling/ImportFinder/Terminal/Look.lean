import ImportFinder.Report.Plain
import ImportFinder.Report.Style
import ImportFinder.Spinner

/-!
# What a terminal shows

The styles in which the program shows reports and spinners, and the wheel that it
turns: a ring of dots in which a gap goes round.
-/

namespace ImportFinder

/-- The styles of a report, on a terminal with or without colours. -/
def Report.Palette.styled (colors : Bool) : Palette where
  path := Style.render colors "1;38;5;39"
  number := Style.render colors "38;5;240"
  target := Style.render colors "1;38;5;214"
  unused := Style.render colors "38;5;196"
  summary := Style.render colors "38;5;245"

/-- The styles of a spinner, on a terminal with or without colours. -/
def Spinner.Look.styled (colors : Bool) : Look where
  message := Style.render colors "38;5;252"
  success := Style.render colors "38;5;34"
  failure := Style.render colors "38;5;196"

namespace Wheel

/-- The pictures of the dots, one for each turn. -/
def frames : List Text :=
  [text "⣾ ", text "⣽ ", text "⣻ ", text "⢿ ", text "⡿ ", text "⣟ ", text "⣯ ", text "⣷ "]

/-- The ring of dots, on a terminal with or without colours. A tick says whether it is
    for this wheel or for another one. -/
def dots (colors : Bool) : Wheel where
  State := Nat
  Tick := Bool
  start := 0
  turn turns own := if own then (turns + 1, true) else (turns, false)
  picture turns := Style.render colors "38;5;39" (frames.getD (turns % frames.length) [])

end Wheel

end ImportFinder
