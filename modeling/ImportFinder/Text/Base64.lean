import ImportFinder.Text.Basic

/-!
# Base 64

Bytes as text over a 64 letter alphabet, three bytes to four letters, with
padding. `decode` reads what `encode` writes; line breaks between the letters
are passed over.
-/

namespace ImportFinder.Base64

/-- The letter of a six bit number. -/
def letter (n : Nat) : UInt8 :=
  if n < 26 then UInt8.ofNat (0x41 + n)
  else if n < 52 then UInt8.ofNat (0x61 + (n - 26))
  else if n < 62 then UInt8.ofNat (0x30 + (n - 52))
  else if n = 62 then 0x2B
  else 0x2F

/-- The six bit number of a letter. -/
def value? (b : UInt8) : Option Nat :=
  if 0x41 ≤ b && b ≤ 0x5A then some (b.toNat - 0x41)
  else if 0x61 ≤ b && b ≤ 0x7A then some (b.toNat - 0x61 + 26)
  else if 0x30 ≤ b && b ≤ 0x39 then some (b.toNat - 0x30 + 52)
  else if b = 0x2B then some 62
  else if b = 0x2F then some 63
  else none

/-- The padding. -/
abbrev pad : UInt8 := 0x3D

/-- The letters of a text. -/
def encode : Text → Text
  | [] => []
  | [a] =>
    let n := a.toNat * 16
    [letter (n / 64), letter (n % 64), pad, pad]
  | [a, b] =>
    let n := (a.toNat * 256 + b.toNat) * 4
    [letter (n / 4096), letter (n / 64 % 64), letter (n % 64), pad]
  | a :: b :: c :: rest =>
    let n := a.toNat * 65536 + b.toNat * 256 + c.toNat
    letter (n / 262144) :: letter (n / 4096 % 64) :: letter (n / 64 % 64) :: letter (n % 64) ::
      encode rest

/-- Reads groups of four letters, of which only the last may be padded. -/
def decodeGroups : Text → Option Text
  | [] => some []
  | a :: b :: c :: d :: rest => do
    let x ← value? a
    let y ← value? b
    if c = pad then
      if d = pad ∧ rest.isEmpty then
        return [UInt8.ofNat (x * 4 + y / 16)]
      else none
    else
      let z ← value? c
      if d = pad then
        if rest.isEmpty then
          return [UInt8.ofNat (x * 4 + y / 16), UInt8.ofNat (y % 16 * 16 + z / 4)]
        else none
      else
        let w ← value? d
        let more ← decodeGroups rest
        return UInt8.ofNat (x * 4 + y / 16) :: UInt8.ofNat (y % 16 * 16 + z / 4) ::
          UInt8.ofNat (z % 4 * 64 + w) :: more
  | _ => none

/-- The text that letters stand for. Line breaks are passed over. -/
def decode (t : Text) : Option Text :=
  decodeGroups (t.filter fun b => b ≠ Text.newline ∧ b ≠ Text.carriageReturn)

end ImportFinder.Base64
