import ImportFinder.Text.Basic

/-!
# White space

The white space that surrounds entries, targets and lines is that of Unicode:
the six ASCII controls and the blank, and the space characters beyond ASCII in
their UTF-8 form. Since such a character starts with a byte that continues no
other character, it can be recognised at any offset of a text.

`trim` cuts white space at both ends and `fields` gives the pieces between it.
-/

namespace ImportFinder.Text

/-- Whether a byte is a white space character of its own. -/
def isAsciiSpace (b : UInt8) : Bool := b == 0x20 || (0x09 ≤ b && b ≤ 0x0D)

/-- Whether three bytes are the UTF-8 form of a white space character. -/
def isWideSpace (b₀ b₁ b₂ : UInt8) : Bool :=
  (b₀ == 0xE1 && b₁ == 0x9A && b₂ == 0x80) ||
  (b₀ == 0xE2 && b₁ == 0x80 &&
    ((0x80 ≤ b₂ && b₂ ≤ 0x8A) || b₂ == 0xA8 || b₂ == 0xA9 || b₂ == 0xAF)) ||
  (b₀ == 0xE2 && b₁ == 0x81 && b₂ == 0x9F) ||
  (b₀ == 0xE3 && b₁ == 0x80 && b₂ == 0x80)

/-- Whether two bytes are the UTF-8 form of a white space character. -/
def isPairSpace (b₀ b₁ : UInt8) : Bool := b₀ == 0xC2 && (b₁ == 0x85 || b₁ == 0xA0)

/-- The number of bytes of the white space character at the start of a text,
    `0` if there is none. -/
def leadingSpace : Text → Nat
  | b₀ :: rest =>
    if isAsciiSpace b₀ then 1
    else match rest with
      | b₁ :: rest =>
        if isPairSpace b₀ b₁ then 2
        else match rest with
          | b₂ :: _ => if isWideSpace b₀ b₁ b₂ then 3 else 0
          | [] => 0
      | [] => 0
  | [] => 0

/-- The number of bytes of the white space character at the end of a text that
    is given backwards, `0` if there is none. -/
def trailingSpace : Text → Nat
  | b₀ :: rest =>
    if isAsciiSpace b₀ then 1
    else match rest with
      | b₁ :: rest =>
        if isPairSpace b₁ b₀ then 2
        else match rest with
          | b₂ :: _ => if isWideSpace b₂ b₁ b₀ then 3 else 0
          | [] => 0
      | [] => 0
  | [] => 0

/-- A text without the characters that `width` measures at its start, each of
    them being dropped as a whole. The second argument counts the bytes of the
    character that is being dropped. -/
def dropChars (width : Text → Nat) : Nat → Text → Text
  | _, [] => []
  | k + 1, _ :: rest => dropChars width k rest
  | 0, b :: rest =>
    match width (b :: rest) with
    | 0 => b :: rest
    | n + 1 => dropChars width n rest

/-- A text without leading white space. -/
def trimStart (t : Text) : Text := dropChars leadingSpace 0 t

/-- A text without trailing white space. -/
def trimEnd (t : Text) : Text := (dropChars trailingSpace 0 t.reverse).reverse

/-- A text without leading and trailing white space. -/
def trim (t : Text) : Text := trimEnd (trimStart t)

/-- The pieces of a text between white space, put behind those already found,
    of which the last comes first. `piece` is the piece being read, backwards,
    and the first argument counts the bytes of the white space character that
    is being passed. -/
def fieldsFrom : Nat → Text → List Text → Text → List Text
  | _, piece, found, [] => (if piece.isEmpty then found else piece.reverse :: found).reverse
  | k + 1, piece, found, _ :: rest => fieldsFrom k piece found rest
  | 0, piece, found, b :: rest =>
    match leadingSpace (b :: rest) with
    | 0 => fieldsFrom 0 (b :: piece) found rest
    | n + 1 => fieldsFrom n [] (if piece.isEmpty then found else piece.reverse :: found) rest

/-- The non-empty pieces of a text between white space. -/
def fields (t : Text) : List Text := fieldsFrom 0 [] [] t

end ImportFinder.Text
