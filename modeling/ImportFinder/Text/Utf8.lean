import ImportFinder.Text.Basic

/-!
# UTF-8

A text is read as a sequence of items: the characters it encodes, and the
bytes that belong to no well-formed character. Well-formed is strict: no
surrogates, no longer form than needed, nothing above `U+10FFFF`.

`decode` loses nothing: the items written out again are the text. A text is
`valid` when no byte is stray.
-/

namespace ImportFinder.Utf8

/-- A character of a text, or a byte that belongs to none. -/
inductive Item
  | char (c : Char)
  | stray (b : UInt8)
  deriving DecidableEq, Repr

/-- Whether a byte continues a character. -/
def isContinuation (b : UInt8) : Bool := 0x80 ≤ b && b ≤ 0xBF

/-- The six bits that a continuation byte carries. -/
def payload (b : UInt8) : Nat := b.toNat % 64

/-- The character at the start of a text and its number of bytes, if a
    well-formed one stands there. -/
def leading : Text → Option (Char × Nat)
  | [] => none
  | b :: rest =>
    if b < 0x80 then some (Char.ofNat b.toNat, 1)
    else match rest with
      | [] => none
      | b₁ :: rest₁ =>
        if !isContinuation b₁ then none
        else if 0xC2 ≤ b && b ≤ 0xDF then
          some (Char.ofNat (b.toNat % 32 * 64 + payload b₁), 2)
        else match rest₁ with
          | [] => none
          | b₂ :: rest₂ =>
            if !isContinuation b₂ then none
            else if 0xE0 ≤ b && b ≤ 0xEF then
              let n := b.toNat % 16 * 4096 + payload b₁ * 64 + payload b₂
              if n < 0x800 || (0xD800 ≤ n && n ≤ 0xDFFF) then none else some (Char.ofNat n, 3)
            else match rest₂ with
              | [] => none
              | b₃ :: _ =>
                if !isContinuation b₃ then none
                else if 0xF0 ≤ b && b ≤ 0xF4 then
                  let n := b.toNat % 8 * 262144 + payload b₁ * 4096 + payload b₂ * 64 + payload b₃
                  if n < 0x10000 || 0x10FFFF < n then none else some (Char.ofNat n, 4)
                else none

/-- The items of a text behind `skip` bytes, put behind those already read, of
    which the last comes first. -/
def decodeFrom : Nat → List Item → Text → List Item
  | _, read, [] => read.reverse
  | skip + 1, read, _ :: rest => decodeFrom skip read rest
  | 0, read, b :: rest =>
    match leading (b :: rest) with
    | some (c, n) => decodeFrom (n - 1) (.char c :: read) rest
    | none => decodeFrom 0 (.stray b :: read) rest

/-- The items of a text. -/
def decode (t : Text) : List Item := decodeFrom 0 [] t

/-- The bytes of a character. -/
def encodeChar (c : Char) : Text := String.utf8EncodeChar c

/-- The bytes of an item. -/
def Item.bytes : Item → Text
  | .char c => encodeChar c
  | .stray b => [b]

/-- Whether an item is a character. -/
def Item.isChar : Item → Bool
  | .char _ => true
  | .stray _ => false

/-- Whether a text holds nothing but well-formed characters. -/
def valid (t : Text) : Bool := (decode t).all Item.isChar

/-- The character that stands for a byte that belongs to none. -/
def replacement : Char := Char.ofNat 0xFFFD

/-- The character of an item, a stray byte being replaced. -/
def Item.toChar : Item → Char
  | .char c => c
  | .stray _ => replacement

/-- The characters of a text, with every stray byte replaced. -/
def chars (t : Text) : List Char := (decode t).map Item.toChar

/-- The bytes of a list of characters. -/
def encode (cs : List Char) : Text := cs.flatMap encodeChar

/-- The number of items of a text. -/
def count (t : Text) : Nat := (decode t).length

end ImportFinder.Utf8
