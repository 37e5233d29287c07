import ImportFinder.Text.Base64
import ImportFinder.Text.Utf8
import ImportFinder.Yaml.Kind

/-!
# Texts as YAML scalars

A text can be written as a scalar in four styles. Which of them are open to it is
read off its characters (`Shape`), and `style` takes the most legible one:

* *literal*, on lines of its own, for a text with line feeds;
* *plain*, without quotes, if it would not be taken for something else;
* *single* quotes, where nothing but the quote itself is escaped;
* *double* quotes, where everything can be escaped.

A text that is no valid UTF-8 is written in base 64 with the tag `!!binary`.

The line separators beyond ASCII count as line breaks, and stay as they are in a
literal or single quoted scalar.
-/

namespace ImportFinder.Yaml

/-! ### Characters -/

/-- Whether a character breaks a line. -/
def isBreak (c : Char) : Bool :=
  c == '\n' || c == '\r' || c.toNat == 0x85 || c.toNat == 0x2028 || c.toNat == 0x2029

/-- Whether a character is a blank or a tabulator. -/
def isBlank (c : Char) : Bool := c == ' ' || c == '\t'

/-- Whether a character may be written as it is. -/
def isPrintable (c : Char) : Bool :=
  let n := c.toNat
  n == 0x0A || (0x20 ≤ n && n ≤ 0x7E) || (0xA0 ≤ n && n ≤ 0xFFFD && n != 0xFEFF)

/-- Whether a character could be taken for an indicator of the notation. At the
    start many of them are; later only a colon before and a hash behind white
    space. -/
def isIndicator (before after : Option Char) (c : Char) : Bool :=
  match before with
  | none =>
    "#,[]\x7b\x7d&*!|>'\"%@`".toList.contains c || ("?:-".toList.contains c && after.all isBlank)
  | some b => (c == ':' && after.all isBlank) || (c == '#' && (isBlank b || isBreak b))

/-- Whether some character of a text could be taken for an indicator. -/
def hasIndicator : Option Char → List Char → Bool
  | _, [] => false
  | before, c :: rest => isIndicator before rest.head? c || hasIndicator (some c) rest

/-- Whether a character satisfying `p` is directly followed by one satisfying
    `q`. -/
def hasPair (p q : Char → Bool) : List Char → Bool
  | c :: d :: rest => (p c && q d) || hasPair p q (d :: rest)
  | _ => false

/-! ### Styles -/

/-- What the characters of a text say about the styles open to it. -/
structure Shape where
  /-- The text holds or starts like an indicator. -/
  indicator : Bool
  /-- There is a blank at one of the ends. -/
  padded : Bool
  /-- There is a blank at the end. -/
  trailing : Bool
  breaks : Bool
  /-- A blank stands directly before a line break. -/
  spaceBreak : Bool
  /-- A blank stands directly behind a line break. -/
  breakSpace : Bool
  tabs : Bool
  /-- There is a character that must be escaped. -/
  special : Bool
  deriving DecidableEq, Repr

/-- The shape of a text. -/
def Shape.of (cs : List Char) : Shape where
  indicator := hasIndicator none cs || "---".toList.isPrefixOf cs || "...".toList.isPrefixOf cs
  padded := cs.head? == some ' ' || cs.getLast? == some ' '
  trailing := cs.getLast? == some ' '
  breaks := cs.any isBreak
  spaceBreak := hasPair (· == ' ') isBreak cs
  breakSpace := hasPair isBreak (· == ' ') cs
  tabs := cs.contains '\t'
  special := cs.any fun c => c != '\t' && !isPrintable c

/-- Whether the text can go without quotes. -/
def Shape.allowsPlain (s : Shape) : Bool :=
  !s.indicator && !s.padded && !s.breaks && !s.tabs && !s.special

/-- Whether the text can go without escapes. -/
def Shape.allowsSingle (s : Shape) : Bool :=
  !s.breakSpace && !s.spaceBreak && !s.tabs && !s.special

/-- Whether the text can stand on lines of its own. -/
def Shape.allowsLiteral (s : Shape) : Bool := !s.trailing && !s.spaceBreak && !s.special

/-- The styles of a scalar. -/
inductive Style
  | plain
  | single
  | double
  | literal
  deriving DecidableEq, Repr

/-- Whether a plain scalar with this text would be read as the text, also by
    readers that know older versions of the notation. -/
def readsAsText (t : Text) : Bool := kind t == .str && !isSexagesimal t && !isOldBool t

/-- The style of a text. `tagged` scalars are not taken for anything else. -/
def style (tagged : Bool) (t : Text) : Style :=
  let shape := Shape.of (Utf8.chars t)
  if t.contains Text.newline then if shape.allowsLiteral then .literal else .double
  else if tagged || readsAsText t then
    if shape.allowsPlain then .plain else if shape.allowsSingle then .single else .double
  else .double

/-! ### Writing -/

/-- Blanks that indent a line. -/
def indentation (n : Nat) : Text := List.replicate n Text.blank

/-- The characters of a scalar whose line breaks stay: behind each run of them
    the line is indented, and other characters are written by `write`. The
    first argument says whether a line break has just been written. -/
def writeLines (indent : Nat) (write : Char → Text) : Bool → List Char → Text
  | _, [] => []
  | atStart, c :: rest =>
    if isBreak c then Utf8.encodeChar c ++ writeLines indent write true rest
    else (if atStart then indentation indent else []) ++ write c ++
      writeLines indent write false rest

/-- A text in single quotes. -/
def single (indent : Nat) (cs : List Char) : Text :=
  text "'" ++
    writeLines indent (fun c => if c = '\'' then text "''" else Utf8.encodeChar c) false cs ++
    text "'"

/-- The letter that stands for a character behind a backslash. -/
def escapeLetter? (c : Char) : Option String :=
  match c.toNat with
  | 0x00 => some "0"
  | 0x07 => some "a"
  | 0x08 => some "b"
  | 0x09 => some "t"
  | 0x0A => some "n"
  | 0x0B => some "v"
  | 0x0C => some "f"
  | 0x0D => some "r"
  | 0x1B => some "e"
  | 0x22 => some "\""
  | 0x5C => some "\\"
  | 0x85 => some "N"
  | 0xA0 => some "_"
  | 0x2028 => some "L"
  | 0x2029 => some "P"
  | _ => none

/-- A character behind a backslash. -/
def escape (c : Char) : Text :=
  let n := c.toNat
  text "\\" ++ match escapeLetter? c with
    | some letter => text letter
    | none =>
      if n ≤ 0xFF then text "x" ++ Text.hex Text.digitUpper 2 n
      else if n ≤ 0xFFFF then text "u" ++ Text.hex Text.digitUpper 4 n
      else text "U" ++ Text.hex Text.digitUpper 8 n

/-- A text in double quotes. Behind a byte order mark everything is escaped. -/
def double (cs : List Char) : Text :=
  let marked := cs.head?.any (·.toNat == 0xFEFF)
  text "\"" ++ cs.flatMap (fun c =>
    if marked || !isPrintable c || isBreak c || c == '"' || c == '\\' then escape c
    else Utf8.encodeChar c) ++ text "\""

/-- The header of a literal: the indentation if the text does not show it, and
    what becomes of the line breaks at its end. -/
def literalHeader (cs : List Char) : Text :=
  text "|" ++ (if cs.head?.any (fun c => c == ' ' || isBreak c) then text "2" else []) ++
    match cs.reverse with
    | [] => text "-"
    | [c] => if isBreak c then text "+" else text "-"
    | c :: d :: _ => if !isBreak c then text "-" else if isBreak d then text "+" else []

/-- A text on lines of its own, and the end of its last line. -/
def literal (indent : Nat) (cs : List Char) : Text :=
  let starts := cs.head?.any fun c => !isBreak c
  let ends := cs.getLast?.any isBreak
  literalHeader cs ++ (if starts then [Text.newline] else []) ++
    writeLines indent Utf8.encodeChar true cs ++ (if ends then [] else [Text.newline])

/-- A text in a style, up to the end of its line. -/
def writeIn (indent : Nat) (t : Text) : Style → Text
  | .plain => t ++ [Text.newline]
  | .single => single indent (Utf8.chars t) ++ [Text.newline]
  | .double => double (Utf8.chars t) ++ [Text.newline]
  | .literal => literal indent (Utf8.chars t)

/-- The longest line of base 64. -/
def base64Line : Nat := 70

/-- Letters in lines of at most `base64Line`. -/
def wrapped (t : Text) : Text :=
  (List.range (t.length / base64Line + 1)).flatMap fun i =>
    match (t.drop (i * base64Line)).take base64Line with
    | [] => []
    | piece => piece ++ [Text.newline]

/-- Bytes in base 64, on one line if they fit. -/
def base64 (t : Text) : Text :=
  let letters := Base64.encode t
  if letters.length < base64Line then letters else wrapped letters

/-- A text as a scalar, up to the end of its line. Further lines are indented. -/
def scalar (indent : Nat) (t : Text) : Text :=
  if Utf8.valid t then writeIn indent t (style false t)
  else text "!!binary " ++ writeIn indent (base64 t) (style true (base64 t))

end ImportFinder.Yaml
