import ImportFinder.Text.Basic

/-!
# Reading line by line

`readLines` gives the lines of a text as they are read one after the other
through a buffer, which differs from cutting the text at its line feeds:

* the end of a line is a line feed, or a carriage return and a line feed;
* the last line needs no line feed, and nothing behind the last line feed is no
  line;
* a line that the buffer cannot hold ends the reading, and neither it nor
  anything behind it is given.
-/

namespace ImportFinder.Text

/-- A line without the carriage return at its end. -/
def dropReturn (line : Text) : Text :=
  if line.getLast? = some carriageReturn then line.dropLast else line

/-- The lines that are read from a text on, where `read` holds the bytes of the
    line that is being read, backwards, and `room` more bytes fit into it. -/
def readLinesFrom (longest : Nat) : (room : Nat) → (read : Text) → Text → List Text
  | _, read, [] => if read.isEmpty then [] else [dropReturn read.reverse]
  | room, read, b :: rest =>
    if b = newline then dropReturn read.reverse :: readLinesFrom longest longest [] rest
    else if room = 0 then []
    else readLinesFrom longest (room - 1) (b :: read) rest

/-- The lines that are read from a text, up to the first one that is longer than
    `longest` bytes. -/
def readLines (longest : Nat) (t : Text) : List Text := readLinesFrom longest longest [] t

end ImportFinder.Text
