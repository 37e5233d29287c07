/-!
# Text as bytes

Source files, file names and messages are handled as they lie on disk: a text
is a list of bytes and need not be valid UTF-8. Lengths and offsets therefore
count bytes everywhere in the library.

This module holds the type, literals, and the searching, splitting and cutting
that every other module uses:

* `occursIn`, whether one text lies inside another;
* `split`, the pieces between the occurrences of one byte;
* `splitLast`, what lies before and after the last occurrence of a byte;
* `trimBytes`, a text without the bytes of a set at both ends.
-/

namespace ImportFinder

/-- A text: a list of bytes. -/
abbrev Text := List UInt8

/-- The bytes of a literal. -/
def text (s : String) : Text := s.toUTF8.data.toList

namespace Text

/-- The line feed. -/
abbrev newline : UInt8 := 0x0A

/-- The carriage return. -/
abbrev carriageReturn : UInt8 := 0x0D

/-- The horizontal tabulator. -/
abbrev tab : UInt8 := 0x09

/-- The blank. -/
abbrev blank : UInt8 := 0x20

/-- The separator of path components. -/
abbrev slash : UInt8 := 0x2F

/-- The separator of a name and its extension. -/
abbrev dot : UInt8 := 0x2E

/-- Whether `needle` occurs in a text as a contiguous piece. The empty text
    occurs everywhere. -/
def occursIn (needle : Text) : Text → Bool
  | [] => needle.isEmpty
  | b :: rest => needle.isPrefixOf (b :: rest) || occursIn needle rest

/-- The pieces of a text between the occurrences of `sep`: one more than there
    are occurrences, so the empty text has one empty piece. -/
def split (sep : UInt8) (t : Text) : List Text :=
  t.foldr (fun b pieces =>
    if b = sep then [] :: pieces
    else match pieces with
      | [] => [[b]]
      | piece :: more => (b :: piece) :: more) [[]]

/-- The lines of a text: its pieces between line feeds. -/
def lines (t : Text) : List Text := split newline t

/-- What lies before and after the last occurrence of `sep`, if it occurs. -/
def splitLast (sep : UInt8) (t : Text) : Option (Text × Text) :=
  let (after, before) := t.reverse.span (· ≠ sep)
  match before with
  | [] => none
  | _ :: before => some (before.reverse, after.reverse)

/-- What lies before and after the first occurrence of `sep`, if it occurs. -/
def splitFirst (sep : UInt8) (t : Text) : Option (Text × Text) :=
  let (before, after) := t.span (· ≠ sep)
  match after with
  | [] => none
  | _ :: after => some (before, after)

/-- A text without the longest runs of bytes satisfying `p` at its two ends. -/
def trimBytes (p : UInt8 → Bool) (t : Text) : Text :=
  ((t.dropWhile p).reverse.dropWhile p).reverse

/-- The pieces joined by a separator. -/
def joinWith (sep : Text) : List Text → Text
  | [] => []
  | first :: more => first ++ more.flatMap (sep ++ ·)

/-- A text with every byte `b` written as `by_`. -/
def replaceByte (b : UInt8) (by_ : Text) (t : Text) : Text :=
  t.flatMap fun c => if c = b then by_ else [c]

/-- A text in which every carriage return directly before a line feed is
    dropped. -/
def dropCarriageReturns (t : Text) : Text :=
  t.foldr (fun b rest =>
    if b = carriageReturn ∧ rest.head? = some newline then rest else b :: rest) []

/-- The bytewise order of texts. -/
def le : Text → Text → Bool
  | [], _ => true
  | _ :: _, [] => false
  | a :: s, b :: t => if a = b then le s t else a < b

end Text

end ImportFinder
