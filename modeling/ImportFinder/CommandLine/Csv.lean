import ImportFinder.Text.Numeral

/-!
# Comma separated lists

A flag that takes a list takes its items separated by commas. An item that holds a
comma, a quote or a line feed stands between double quotes, and a quote inside it
is written twice. Only the first line that is not empty counts, where a quoted
item may go on over several lines.

What is malformed is told by its line and column, both counted from one.
-/

namespace ImportFinder.Csv

/-- The comma. -/
abbrev comma : UInt8 := 0x2C

/-- The double quote. -/
abbrev quote : UInt8 := 0x22

/-- A line with its line feed, and what follows it. A carriage return at the end
    of the line is dropped. There is no line at the end of the text. -/
def nextLine? (t : Text) : Option (Text × Text) :=
  if t.isEmpty then none
  else
    let body := t.takeWhile (· != Text.newline)
    let rest := t.drop body.length
    let body := if body.getLast? = some Text.carriageReturn then body.dropLast else body
    match rest with
    | [] => some (body, [])
    | b :: rest => some (body ++ [b], rest)

/-- Whether nothing but a line feed is left of a line. -/
def atEnd (line : Text) : Bool := line.isEmpty || line == [Text.newline]

/-- How far a list has been read. -/
structure Cursor where
  /-- What is left of the line. -/
  line : Text
  /-- What follows the line. -/
  rest : Text
  /-- The number of the line on which the list starts. -/
  start : Nat
  /-- The number of the line. -/
  number : Nat
  /-- The column of what is left of the line. -/
  column : Nat

namespace Cursor

/-- The cursor behind `n` bytes of its line. -/
def skip (c : Cursor) (n : Nat) : Cursor :=
  { c with line := c.line.drop n, column := c.column + n }

/-- The message for what is malformed at a column. -/
def refuse {α : Type} (c : Cursor) (column : Nat) (why : String) : Except Text α :=
  let place := text "parse error on line " ++ Text.ofNat c.number ++ text ", column " ++
    Text.ofNat column ++ text ": " ++ text why
  .error (if c.start = c.number then place
    else text "record on line " ++ Text.ofNat c.start ++ text "; " ++ place)

end Cursor

/-- What a list with a bad quote in a quoted item is told. -/
def badQuote : String := "extraneous or missing \" in quoted-field"

/-- The items of a list. `found` are the items already read, backwards; inside of
    a quoted item, `open_` is the part of it already read. -/
def items : (fuel : Nat) → (open_ : Option Text) → (found : List Text) → Cursor →
    Except Text (List Text)
  | 0, _, found, _ => .ok found.reverse
  | fuel + 1, none, found, c =>
    if c.line.head? = some quote then items fuel (some []) found (c.skip 1)
    else
      let item := c.line.takeWhile (· != comma)
      let more := item.length < c.line.length
      let item := if !more && item.getLast? = some Text.newline then item.dropLast else item
      let before := item.takeWhile (· != quote)
      if before.length < item.length then
        c.refuse (c.column + before.length) "bare \" in non-quoted-field"
      else if more then items fuel none (item :: found) (c.skip (item.length + 1))
      else .ok (item :: found).reverse
  | fuel + 1, some item, found, c =>
    let piece := c.line.takeWhile (· != quote)
    if piece.length < c.line.length then
      let item := item ++ piece
      let c := c.skip (piece.length + 1)
      if c.line.head? = some quote then items fuel (some (item ++ [quote])) found (c.skip 1)
      else if c.line.head? = some comma then items fuel none (item :: found) (c.skip 1)
      else if atEnd c.line then .ok (item :: found).reverse
      else c.refuse (c.column - 1) badQuote
    else if piece.isEmpty then c.refuse c.column badQuote
    else match nextLine? c.rest with
      | some (line, rest) =>
        items fuel (some (item ++ piece)) found
          { c with line, rest, number := c.number + 1, column := 1 }
      | none => items fuel (some (item ++ piece)) found (c.skip piece.length)

/-- Reads the first line that is not empty. -/
def firstLine : (fuel : Nat) → (number : Nat) → Text → Except Text (List Text)
  | 0, _, _ => .error (text "EOF")
  | fuel + 1, number, t =>
    match nextLine? t with
    | none => .error (text "EOF")
    | some (line, rest) =>
      if atEnd line then firstLine fuel (number + 1) rest
      else items (2 * t.length + 2) none [] { line, rest, start := number, number, column := 1 }

/-- The items of a list. The empty text has none. -/
def parse (t : Text) : Except Text (List Text) :=
  if t.isEmpty then .ok [] else firstLine (t.length + 1) 1 t

end ImportFinder.Csv
