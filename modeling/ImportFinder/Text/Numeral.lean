import ImportFinder.Text.Basic

/-!
# Numerals

Numbers in a positional system with base 2 to 16. `decimal` is the shortest
numeral of an integer in base ten, with a minus sign for a negative one.
-/

namespace ImportFinder.Text

/-- The byte of a digit below sixteen, with small letters above nine. -/
def digit (n : Nat) : UInt8 :=
  if n < 10 then UInt8.ofNat (0x30 + n) else UInt8.ofNat (0x57 + n)

/-- The byte of a digit below sixteen, with capital letters above nine. -/
def digitUpper (n : Nat) : UInt8 :=
  if n < 10 then UInt8.ofNat (0x30 + n) else UInt8.ofNat (0x37 + n)

/-- The shortest numeral of `n` in base `base`. -/
def numeral (letter : Nat → UInt8) (base n : Nat) : Text :=
  if n < base ∨ base < 2 then [letter n]
  else numeral letter base (n / base) ++ [letter (n % base)]
termination_by n
decreasing_by
  rename_i h
  exact Nat.div_lt_self (by omega) (by omega)

/-- The shortest decimal numeral of a natural number. -/
def ofNat (n : Nat) : Text := numeral digit 10 n

/-- The shortest decimal numeral of an integer. -/
def ofInt : Int → Text
  | .ofNat n => ofNat n
  | .negSucc n => 0x2D :: ofNat (n + 1)

/-- The numeral of `n` in base sixteen with at least `width` digits. -/
def hex (letter : Nat → UInt8) (width n : Nat) : Text :=
  let ds := numeral letter 16 n
  List.replicate (width - ds.length) 0x30 ++ ds

/-- Whether a byte is a decimal digit. -/
def isDigit (b : UInt8) : Bool := 0x30 ≤ b && b ≤ 0x39

/-- The value of a decimal digit. -/
def digitValue (b : UInt8) : Nat := b.toNat - 0x30

/-- The value of a hexadecimal digit, in small or capital letters. -/
def hexValue? (b : UInt8) : Option Nat :=
  if 0x30 ≤ b && b ≤ 0x39 then some (b.toNat - 0x30)
  else if 0x61 ≤ b && b ≤ 0x66 then some (b.toNat - 0x57)
  else if 0x41 ≤ b && b ≤ 0x46 then some (b.toNat - 0x37)
  else none

end ImportFinder.Text
