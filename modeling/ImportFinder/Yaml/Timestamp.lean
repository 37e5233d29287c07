import ImportFinder.Text.Numeral

/-!
# Timestamps

The forms in which YAML data may hold a moment: a date, or a date and a time,
where months, days, hours, minutes and seconds have one or two digits. Between a
`T` and a zone the seconds may have any number of decimals; a blank instead of
the `T` goes without a zone. The date has to exist in the calendar.
-/

namespace ImportFinder.Yaml.Timestamp

/-- A number of one or two digits, and what follows it. -/
def number? : Text → Option (Nat × Text)
  | a :: b :: rest =>
    if !Text.isDigit a then none
    else if Text.isDigit b then some (Text.digitValue a * 10 + Text.digitValue b, rest)
    else some (Text.digitValue a, b :: rest)
  | [a] => if Text.isDigit a then some (Text.digitValue a, []) else none
  | [] => none

/-- A number of exactly two digits. -/
def pair? : Text → Option Nat
  | [a, b] =>
    if Text.isDigit a && Text.isDigit b then some (Text.digitValue a * 10 + Text.digitValue b)
    else none
  | _ => none

/-- What follows a byte. -/
def byte? (b : UInt8) : Text → Option Text
  | c :: rest => if b = c then some rest else none
  | [] => none

/-- Whether a year has a leap day. -/
def isLeap (year : Nat) : Bool := year % 4 == 0 && (year % 100 != 0 || year % 400 == 0)

/-- The number of days of a month. -/
def daysIn (year month : Nat) : Nat :=
  if month = 2 then if isLeap year then 29 else 28
  else if month = 4 ∨ month = 6 ∨ month = 9 ∨ month = 11 then 30
  else 31

/-- What follows a date that exists. The year has four digits. -/
def date? (t : Text) : Option Text := do
  let digits := t.takeWhile Text.isDigit
  if digits.length ≠ 4 then none
  let year := digits.foldl (fun n b => n * 10 + Text.digitValue b) 0
  let (month, rest) ← number? (← byte? 0x2D (t.drop 4))
  let (day, rest) ← number? (← byte? 0x2D rest)
  if 1 ≤ month && month ≤ 12 && 1 ≤ day && day ≤ daysIn year month then some rest else none

/-- What follows the decimals of a second, if there are any. -/
def afterDecimals : Text → Text
  | b :: c :: rest =>
    if (b == 0x2E || b == 0x2C) && Text.isDigit c then rest.dropWhile Text.isDigit
    else b :: c :: rest
  | t => t

/-- What follows a time of day. -/
def time? (t : Text) : Option Text := do
  let (hour, rest) ← number? t
  let (minute, rest) ← number? (← byte? 0x3A rest)
  let (second, rest) ← number? (← byte? 0x3A rest)
  if hour < 24 && minute < 60 && second < 60 then some (afterDecimals rest) else none

/-- Whether a text is a zone: `Z`, or an offset of hours and minutes. -/
def isZone (t : Text) : Bool :=
  match t with
  | [b] => b == 0x5A
  | [sign, h₁, h₂, colon, m₁, m₂] =>
    (sign == 0x2B || sign == 0x2D) && colon == 0x3A &&
      (pair? [h₁, h₂]).any (· ≤ 24) && (pair? [m₁, m₂]).any (· ≤ 60)
  | _ => false

/-- Whether a text is a timestamp. -/
def accepts (t : Text) : Bool :=
  match date? t with
  | none => false
  | some [] => true
  | some (b :: rest) =>
    if b = 0x54 ∨ b = 0x74 then (time? rest).any isZone
    else if b = Text.blank then (time? (rest.dropWhile (· == Text.blank))).any (·.isEmpty)
    else false

end ImportFinder.Yaml.Timestamp
