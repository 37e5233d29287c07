import ImportFinder.Text.Numeral
import ImportFinder.Text.Printable
import ImportFinder.Text.Utf8

/-!
# Quoted text

A quoted text shows in a message exactly which bytes a value holds. It stands
between double quotes; quotes and backslashes are escaped, printable characters
stand for themselves, the usual controls have a letter, and everything else is
written in hexadecimal: a byte that belongs to no character or an ASCII control
with two digits, other characters with four or eight.
-/

namespace ImportFinder.Text

/-- The letter that stands for a control character behind a backslash. -/
def controlLetter? (c : Char) : Option UInt8 :=
  match c.toNat with
  | 0x07 => some 0x61
  | 0x08 => some 0x62
  | 0x09 => some 0x74
  | 0x0A => some 0x6E
  | 0x0B => some 0x76
  | 0x0C => some 0x66
  | 0x0D => some 0x72
  | _ => none

/-- A character inside quotes of the kind `quote`. With `asciiOnly` every
    character beyond ASCII is written in hexadecimal. -/
def quoteChar (asciiOnly : Bool) (quote : UInt8) (c : Char) : Text :=
  let n := c.toNat
  if n = quote.toNat ∨ n = 0x5C then [0x5C, UInt8.ofNat n]
  else if n < 0x80 && isPrintable c then [UInt8.ofNat n]
  else if 0x80 ≤ n && !asciiOnly && isPrintable c then Utf8.encodeChar c
  else match controlLetter? c with
    | some letter => [0x5C, letter]
    | none =>
      if n < 0x20 ∨ n = 0x7F then text "\\x" ++ hex digit 2 n
      else if n < 0x10000 then text "\\u" ++ hex digit 4 n
      else text "\\U" ++ hex digit 8 n

/-- An item inside quotes of the kind `quote`. -/
def quoteItem (asciiOnly : Bool) (quote : UInt8) : Utf8.Item → Text
  | .char c => quoteChar asciiOnly quote c
  | .stray b => text "\\x" ++ hex digit 2 b.toNat

/-- The double quote. -/
abbrev doubleQuote : UInt8 := 0x22

/-- The single quote. -/
abbrev singleQuote : UInt8 := 0x27

/-- A text between double quotes, with escapes. -/
def quoted (t : Text) : Text :=
  doubleQuote :: (Utf8.decode t).flatMap (quoteItem false doubleQuote) ++ [doubleQuote]

/-- A text between double quotes in which every character beyond ASCII is
    escaped. -/
def quotedAscii (t : Text) : Text :=
  doubleQuote :: (Utf8.decode t).flatMap (quoteItem true doubleQuote) ++ [doubleQuote]

/-- A character between single quotes, with escapes. -/
def quotedChar (asciiOnly : Bool) (c : Char) : Text :=
  singleQuote :: quoteChar asciiOnly singleQuote c ++ [singleQuote]

/-- The back quote. -/
abbrev backQuote : UInt8 := 0x60

/-- Whether a text can be shown between back quotes without escapes: valid
    characters on one line, no control but the tabulator, no back quote and no
    byte order mark. -/
def isRaw (t : Text) : Bool :=
  (Utf8.decode t).all fun
    | .stray _ => false
    | .char c =>
      let n := c.toNat
      if n < 0x80 then n = 0x09 || (0x20 ≤ n && n ≠ 0x60 && n ≠ 0x7F) else n ≠ 0xFEFF

end ImportFinder.Text
