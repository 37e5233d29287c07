import ImportFinder.Environment
import ImportFinder.Failure
import ImportFinder.Text.Quoted
import ImportFinder.Text.Space

/-!
# Statements that define variables

A file of variables is a sequence of statements `NAME=value`; a colon may stand
for the equals sign, and `export` may stand before the name. Lines that start
with `#` are comments.

A value without quotes ends with its line, or where a `#` follows a blank. In
single quotes everything stands for itself. In double quotes a backslash escapes
the character behind it, and the value may go on over several lines. In values
without quotes and in double quotes, `$NAME` stands for a variable that was
defined before in the same file.
-/

namespace ImportFinder.DotEnv

/-! ### Characters -/

/-- The number of bytes of the blank at the start of a text, `0` if there is none.
    A line feed is no blank. -/
def leadingBlank : Text → Nat
  | b₀ :: rest =>
    if b₀ == 0x09 || b₀ == 0x0B || b₀ == 0x0C || b₀ == 0x0D || b₀ == 0x20 then 1
    else match rest with
      | b₁ :: _ => if Text.isPairSpace b₀ b₁ then 2 else 0
      | [] => 0
  | [] => 0

/-- A text without leading blanks. -/
def skipBlanks (t : Text) : Text := Text.dropChars leadingBlank 0 t

/-- Whether a character is a blank. -/
def isBlank (c : Char) : Bool :=
  c == '\t' || c.toNat == 0x0B || c.toNat == 0x0C || c == '\r' || c == ' ' || c.toNat == 0x85 ||
    c.toNat == 0xA0

/-- Whether a byte may stand in a name: a letter or number of the first 256
    characters, a dot, an underscore, or a blank. -/
def isNameByte (b : UInt8) : Bool :=
  (0x30 ≤ b && b ≤ 0x39) || (0x41 ≤ b && b ≤ 0x5A) || (0x61 ≤ b && b ≤ 0x7A) ||
    b == 0x2E || b == 0x5F || isBlank (Char.ofNat b.toNat) ||
    [0xAA, 0xB2, 0xB3, 0xB5, 0xB9, 0xBA, 0xBC, 0xBD, 0xBE].contains b ||
    (0xC0 ≤ b && b != 0xD7 && b != 0xF7)

/-! ### Statements -/

/-- The start of the next statement, empty at the end of the file. -/
def nextStatement : (fuel : Nat) → Text → Text
  | 0, _ => []
  | fuel + 1, t =>
    match Text.trimStart t with
    | [] => []
    | b :: rest =>
      if b = 0x23 then nextStatement fuel (rest.dropWhile (· != Text.newline))
      else b :: rest

/-- A statement without the word `export` and the blanks before its name. -/
def skipExport (t : Text) : Text :=
  let t := skipBlanks t
  if (text "export").isPrefixOf t && leadingBlank (t.drop 6) ≠ 0 then skipBlanks (t.drop 6) else t

/-- The name of a statement, and what follows it. A statement at the end of the
    file may have no name. -/
def name? (t : Text) : Except Failure (Text × Text) :=
  let t := skipExport t
  let name := t.takeWhile isNameByte
  match t.drop name.length with
  | [] =>
    if t.isEmpty then .error (.plain (text "zero length string")) else .ok ([], skipBlanks t)
  | b :: rest =>
    if b = 0x3D ∨ b = 0x3A then .ok (Text.trimEnd name, skipBlanks rest)
    else .error (.plain (text "unexpected character " ++
      Text.quoted (Utf8.encodeChar (Char.ofNat b.toNat)) ++ text " in variable name near " ++
      Text.quoted t))

/-! ### Values -/

/-- Whether a byte may stand in the name of a variable that is referred to. -/
def isReferenceByte (b : UInt8) : Bool :=
  (0x30 ≤ b && b ≤ 0x39) || (0x41 ≤ b && b ≤ 0x5A) || b == 0x5F

/-- A text without a byte at its start, if it is there. -/
def dropByte (b : UInt8) : Text → Text
  | c :: rest => if b = c then rest else c :: rest
  | [] => []

/-- What follows a dollar sign and belongs to it: an opening bracket, an opening
    brace, a name and a closing brace, each of which may be missing. -/
def reference (t : Text) : Text × Text :=
  let inner := dropByte 0x7B (dropByte 0x28 t)
  let name := inner.takeWhile isReferenceByte
  (name, dropByte 0x7D (inner.drop name.length))

/-- A value with its variables replaced. A backslash keeps the dollar sign behind
    it and everything that belongs to it. -/
def expand (vars : List (Text × Text)) : (fuel : Nat) → Text → Text
  | 0, t => t
  | _ + 1, [] => []
  | fuel + 1, b :: rest =>
    if b = 0x24 then
      let (name, after) := reference rest
      let kept := b :: rest.take (rest.length - after.length)
      (if name.isEmpty then kept else (List.lookup name vars).getD []) ++ expand vars fuel after
    else if b = 0x5C ∧ rest.head? = some 0x24 then
      let after := (reference (rest.drop 1)).2
      rest.take (rest.length - after.length) ++ expand vars fuel after
    else b :: expand vars fuel rest

/-- A value in which escapes of line breaks are replaced by them. -/
def expandBreaks : Text → Text
  | [] => []
  | [b] => [b]
  | b :: c :: rest =>
    if b = 0x5C ∧ c ≠ Text.newline then
      if c = 0x6E then Text.newline :: expandBreaks rest
      else if c = 0x72 then Text.carriageReturn :: expandBreaks rest
      else b :: c :: expandBreaks rest
    else b :: expandBreaks (c :: rest)

/-- A value without the backslashes that escape another character than the
    dollar sign. -/
def dropEscapes : Text → Text
  | [] => []
  | [b] => [b]
  | b :: c :: rest =>
    if b = 0x5C ∧ c ≠ 0x24 then c :: dropEscapes rest else b :: dropEscapes (c :: rest)

/-- The length of a quoted value up to its closing quote. A quote directly behind
    a backslash does not close. -/
def quotedLength (quote : UInt8) : (before : UInt8) → Text → Option Nat
  | _, [] => none
  | before, b :: rest =>
    if b = quote ∧ before ≠ 0x5C then some 0 else (quotedLength quote b rest).map (· + 1)

/-- What stands before the last hash behind a blank, everything being given
    backwards. -/
def beforeComment? : List Char → Option (List Char)
  | c :: b :: more => if c == '#' && isBlank b then some (b :: more) else beforeComment? (b :: more)
  | _ => none

/-- Characters without the comment that ends them: it starts at the last hash
    behind a blank. -/
def dropComment (cs : List Char) : List Char :=
  match beforeComment? cs.reverse with
  | some before => before.reverse
  | none => cs

/-- A value without quotes. -/
def plainValue (line : Text) : Text :=
  let cs := dropComment (Utf8.chars line)
  Utf8.encode ((cs.dropWhile isBlank).reverse.dropWhile isBlank).reverse

/-- Whether a byte ends a line. -/
def isLineEnd (b : UInt8) : Bool := b == Text.newline || b == Text.carriageReturn

/-- The value at the start of a text, and what follows it. -/
def value? (vars : List (Text × Text)) (t : Text) : Except Failure (Text × Text) :=
  match t with
  | [] => .ok ([], [])
  | quote :: rest =>
    if quote = 0x22 ∨ quote = 0x27 then
      match quotedLength quote quote rest with
      | none =>
        .error (.plain (text "unterminated quoted value " ++ t.takeWhile (· != Text.newline)))
      | some n =>
        let inner := Text.trimBytes (· == quote) (rest.take n)
        let inner := if quote = 0x22 then
            let unescaped := dropEscapes (expandBreaks inner)
            expand vars (unescaped.length + 1) unescaped
          else inner
        .ok (inner, rest.drop (n + 1))
    else
      let line := t.takeWhile (!isLineEnd ·)
      let value := plainValue line
      .ok (expand vars (value.length + 1) value, t.drop line.length)

/-- The variables of the statements of a file, added to those already read. -/
def statements : (fuel : Nat) → Variables → Text → Except Failure Variables
  | 0, vars, _ => .ok vars
  | fuel + 1, vars, t =>
    match nextStatement (t.length + 1) t with
    | [] => .ok vars
    | t => do
      let (name, rest) ← name? t
      let (value, rest) ← value? vars.entries rest
      statements fuel (vars.put name value) rest

/-- The variables that a file defines. The last definition of a name counts. -/
def parse (content : Text) : Except Failure Variables :=
  let t := Text.dropCarriageReturns content
  statements (t.length + 1) .empty t

end ImportFinder.DotEnv
