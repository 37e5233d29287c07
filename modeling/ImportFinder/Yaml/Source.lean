import ImportFinder.Text.Utf8
import ImportFinder.Yaml.Scalar

/-!
# The characters of a YAML text

A YAML text is UTF-8, or UTF-16 if it starts with a byte order mark that says so.
Its characters have to be printable or white space. `Position` says where a
character stands, and the rest of the module knows the line breaks: five kinds of
them, of which a carriage return and a line feed may go together, and which are
all read as a line feed, except the two Unicode separators.
-/

namespace ImportFinder.Yaml

/-! ### Decoding -/

/-- The 16 bit units of a text. A last odd byte has no unit. -/
def units (bigEndian : Bool) : Text → Option (List Nat)
  | [] => some []
  | [_] => none
  | a :: b :: rest =>
    let unit := if bigEndian then a.toNat * 256 + b.toNat else b.toNat * 256 + a.toNat
    (units bigEndian rest).map (unit :: ·)

/-- The characters of 16 bit units, where two surrogates make one. -/
def ofUnits : List Nat → Option (List Char)
  | [] => some []
  | u :: rest =>
    if 0xD800 ≤ u && u ≤ 0xDBFF then
      match rest with
      | v :: rest =>
        if 0xDC00 ≤ v && v ≤ 0xDFFF then
          (ofUnits rest).map (Char.ofNat (0x10000 + (u - 0xD800) * 1024 + (v - 0xDC00)) :: ·)
        else none
      | [] => none
    else if 0xDC00 ≤ u && u ≤ 0xDFFF then none
    else (ofUnits rest).map (Char.ofNat u :: ·)

/-- Whether a character may stand in a YAML text. -/
def isAllowed (c : Char) : Bool :=
  let n := c.toNat
  n == 0x09 || n == 0x0A || n == 0x0D || (0x20 ≤ n && n ≤ 0x7E) || n == 0x85 ||
    (0xA0 ≤ n && n ≤ 0xFFFD) || 0x10000 ≤ n

/-- The characters of a YAML text without its byte order mark. There are none if
    the text is malformed or holds control characters. -/
def source? (t : Text) : Option (List Char) := do
  let cs ← match t with
    | 0xFF :: 0xFE :: rest => units false rest >>= ofUnits
    | 0xFE :: 0xFF :: rest => units true rest >>= ofUnits
    | 0xEF :: 0xBB :: 0xBF :: rest => if Utf8.valid rest then some (Utf8.chars rest) else none
    | t => if Utf8.valid t then some (Utf8.chars t) else none
  if cs.all isAllowed then some cs else none

/-! ### Positions -/

/-- Where a character stands. -/
structure Position where
  /-- The number of lines before it. -/
  line : Nat := 0
  /-- The number of characters before it on its line. -/
  column : Nat := 0
  /-- The number of characters before it. -/
  index : Nat := 0
  /-- Whether only blanks stand between it and the last line break. -/
  fresh : Bool := false
  deriving DecidableEq, Repr

/-- The position behind a character that breaks no line. -/
def Position.step (p : Position) (c : Char) : Position :=
  { p with column := p.column + 1, index := p.index + 1, fresh := p.fresh && isBlank c }

/-- The position behind a line break of `width` characters. -/
def Position.nextLine (p : Position) (width : Nat) : Position :=
  { line := p.line + 1, column := 0, index := p.index + width, fresh := true }

/-- The position behind some characters. -/
def Position.over (p : Position) : List Char → Position
  | [] => p
  | [c] => if isBreak c then p.nextLine 1 else p.step c
  | c :: d :: rest =>
    if c = '\r' ∧ d = '\n' then (p.nextLine 2).over rest
    else (if isBreak c then p.nextLine 1 else p.step c).over (d :: rest)

/-! ### Line breaks -/

/-- Whether a character is a blank or breaks a line. -/
def isGap (c : Char) : Bool := isBlank c || isBreak c

/-- Whether the rest of a text starts with a gap or is empty. -/
def atGap (cs : List Char) : Bool := cs.head?.all isGap

/-- The character that a line break is read as. -/
def breakValue (c : Char) : Char := if c.toNat = 0x2028 ∨ c.toNat = 0x2029 then c else '\n'

/-- The line break at the start of a text as it is read, and what follows it. -/
def lineBreak? : List Char → Option (Char × List Char)
  | [] => none
  | c :: rest =>
    if c = '\r' ∧ rest.head? = some '\n' then some ('\n', rest.drop 1)
    else if isBreak c then some (breakValue c, rest)
    else none

/-- The line breaks among some characters as they are read. -/
def breaksOf : List Char → List Char
  | [] => []
  | [c] => if isBreak c then [breakValue c] else []
  | c :: d :: rest =>
    if c = '\r' ∧ d = '\n' then '\n' :: breaksOf rest
    else if isBreak c then breakValue c :: breaksOf (d :: rest)
    else breaksOf (d :: rest)

/-- What line breaks between two pieces of a scalar stand for: a single line feed
    for a blank, and of several all but the first for themselves. -/
def folded : List Char → List Char
  | [] => []
  | [c] => if c = '\n' then [' '] else [c]
  | c :: more => if c = '\n' then more else c :: more

/-- What a gap between two pieces of a scalar stands for. -/
def gapValue (gap : List Char) : List Char :=
  if gap.any isBreak then folded (breaksOf gap) else gap

/-- Whether the rest of a text starts with a document mark, which counts only in
    the first column. -/
def atDocumentMark (cs : List Char) : Bool :=
  ("---".toList.isPrefixOf cs || "...".toList.isPrefixOf cs) && atGap (cs.drop 3)

end ImportFinder.Yaml
