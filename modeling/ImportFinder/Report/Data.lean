import ImportFinder.Text.Basic

/-!
# Data

The values that a structured report is made of. A record keeps its fields in the
order in which they are written, and may hold a name more than once.
-/

namespace ImportFinder

/-- A value of a structured report. -/
inductive Data
  | null
  | bool (b : Bool)
  | int (n : Int)
  | str (t : Text)
  | list (items : List Data)
  | record (fields : List (Text × Data))
  deriving Repr

end ImportFinder
