import ImportFinder.Yaml.Timestamp

/-!
# What a plain scalar stands for

A scalar without quotes may stand for nothing, a truth value, a number or a
moment; otherwise it is the text itself. Writers put a text in quotes when it
would be taken for something else, and readers tell the kind of a value from its
text, so both use `kind`.

Integers may be written in base two, eight, ten or sixteen, with underscores
between their digits, and have to fit 64 bits. Other numbers are floats if they
are not too large for one.
-/

namespace ImportFinder.Yaml

/-- What a plain scalar stands for. -/
inductive Kind
  | null
  | bool
  | int
  | float
  | timestamp
  | str
  deriving DecidableEq, Repr

/-- The tag of a kind. -/
def Kind.tag : Kind → Text
  | .null => text "!!null"
  | .bool => text "!!bool"
  | .int => text "!!int"
  | .float => text "!!float"
  | .timestamp => text "!!timestamp"
  | .str => text "!!str"

/-- The words that stand for a value. -/
def words : List (String × Kind) :=
  [("true", .bool), ("True", .bool), ("TRUE", .bool),
   ("false", .bool), ("False", .bool), ("FALSE", .bool),
   ("", .null), ("~", .null), ("null", .null), ("Null", .null), ("NULL", .null),
   (".nan", .float), (".NaN", .float), (".NAN", .float),
   (".inf", .float), (".Inf", .float), (".INF", .float),
   ("+.inf", .float), ("+.Inf", .float), ("+.INF", .float),
   ("-.inf", .float), ("-.Inf", .float), ("-.INF", .float)]

/-! ### Integers -/

/-- The value of digits in a base. There has to be at least one digit. -/
def digits? (base : Nat) (t : Text) : Option Nat :=
  if t.isEmpty then none
  else t.foldl (fun n b => do
    let d ← Text.hexValue? b
    if d < base then return (← n) * base + d else none) (some 0)

/-- The value of an unsigned numeral whose base is told from its start: `0b`,
    `0o`, `0x`, or `0` for base eight. -/
def unsigned? (t : Text) : Option Nat :=
  match t with
  | [0x30] => some 0
  | 0x30 :: b :: rest =>
    let letter := b ||| 0x20
    if rest.isEmpty then digits? 8 [b]
    else if letter = 0x62 then digits? 2 rest
    else if letter = 0x6F then digits? 8 rest
    else if letter = 0x78 then digits? 16 rest
    else digits? 8 (b :: rest)
  | t => digits? 10 t

/-- The value of a numeral with an optional sign, read by `magnitude?`. -/
def signed? (magnitude? : Text → Option Nat) : Text → Option Int
  | 0x2D :: rest => (magnitude? rest).map fun n => -(n : Int)
  | 0x2B :: rest => (magnitude? rest).map Int.ofNat
  | t => (magnitude? t).map Int.ofNat

/-- Whether a signed number fits 64 bits. -/
def fits (n : Int) : Bool := -0x8000000000000000 ≤ n && n < 0x8000000000000000

/-- Whether a text is a numeral in a base, signed or too large for a sign. -/
def isIntegerIn (magnitude? : Text → Option Nat) (t : Text) : Bool :=
  (signed? magnitude? t).any fits || (magnitude? t).any (· < 0x10000000000000000)

/-- Whether a text is an integer with its sign behind the base, as in `0b-1`. -/
def isIntegerBehindBase (t : Text) : Bool :=
  match t with
  | 0x30 :: 0x62 :: rest => isIntegerIn (digits? 2) rest
  | 0x30 :: 0x6F :: rest => isIntegerIn (digits? 8) rest
  | _ => false

/-! ### Floats -/

/-- A decimal number `digits · 10 ^ exponent`. -/
structure Decimal where
  digits : Nat
  exponent : Int
  deriving DecidableEq, Repr

/-- The least number that is too large for a float: half a unit in the last
    place above the largest one. -/
def tooLarge : Nat := (Nat.pow 2 54 - 1) * Nat.pow 2 970

/-- Whether a decimal number does not exceed the floats. -/
def Decimal.isFinite (d : Decimal) : Bool :=
  let size : Int := (Text.ofNat d.digits).length + d.exponent
  if d.digits = 0 ∨ size < 300 then true
  else if 400 < size then false
  else if 0 ≤ d.exponent then d.digits * Nat.pow 10 d.exponent.toNat < tooLarge
  else d.digits < tooLarge * Nat.pow 10 (-d.exponent).toNat

/-- The value of decimal digits. -/
def decimalValue (t : Text) : Nat := t.foldl (fun n b => n * 10 + Text.digitValue b) 0

/-- An exponent: nothing, or a letter, an optional sign and at least one
    digit. Exponents beyond ten thousand are cut. -/
def exponent? : Text → Option Int
  | [] => some 0
  | b :: rest =>
    if b ||| 0x20 ≠ 0x65 then none
    else
      let (negative, ds) := match rest with
        | 0x2D :: ds => (true, ds)
        | 0x2B :: ds => (false, ds)
        | ds => (false, ds)
      if ds.isEmpty || !ds.all Text.isDigit then none
      else
        let n : Int := ds.foldl (fun n b => if n < 10000 then n * 10 + Text.digitValue b else n) 0
        some (if negative then -n else n)

/-- An unsigned decimal number: digits with an optional point, of which at least
    one is there, and an optional exponent. -/
def decimal? (t : Text) : Option Decimal := do
  let whole := t.takeWhile Text.isDigit
  let rest := t.drop whole.length
  let (fraction, rest) := match rest with
    | 0x2E :: rest => (rest.takeWhile Text.isDigit, rest.dropWhile Text.isDigit)
    | rest => ([], rest)
  if whole.isEmpty && fraction.isEmpty then none
  else
    let e ← exponent? rest
    return ⟨decimalValue (whole ++ fraction), e - fraction.length⟩

/-- A text without its sign. -/
def dropSign : Text → Text
  | 0x2D :: rest => rest
  | 0x2B :: rest => rest
  | t => t

/-- Whether every underscore stands between two digits. -/
def underscoresSeparate : Option UInt8 → Text → Bool
  | _, [] => true
  | before, b :: rest =>
    (b != 0x5F || (before.any Text.isDigit && rest.head?.any Text.isDigit)) &&
      underscoresSeparate (some b) rest

/-- A text without underscores. -/
def dropUnderscores (t : Text) : Text := t.filter (· != 0x5F)

/-- Whether a text that starts with a point is a float. -/
def isFraction (t : Text) : Bool :=
  underscoresSeparate none t && (decimal? (dropUnderscores t)).any (·.isFinite)

/-- Whether a number of base sixty could be meant, as in `1:30`. Such texts are
    not read as numbers, but written in quotes. -/
def isSexagesimal (t : Text) : Bool :=
  match dropSign t with
  | [] => false
  | b :: rest =>
    let rest := rest.dropWhile fun c => Text.isDigit c || c == 0x5F
    let (places, decimals) := rest.span (· != 0x2E)
    Text.isDigit b && places.head? == some 0x3A &&
      ((Text.split 0x3A places).drop 1).all (fun place =>
        match place with
        | [a] => Text.isDigit a
        | [a, b] => 0x30 ≤ a && a ≤ 0x35 && Text.isDigit b
        | _ => false) &&
      (decimals.drop 1).all fun c => Text.isDigit c || c == 0x5F

/-- Whether a text is a truth value of older versions of the format. -/
def isOldBool (t : Text) : Bool :=
  ["y", "Y", "yes", "Yes", "YES", "on", "On", "ON", "n", "N", "no", "No", "NO", "off", "Off",
    "OFF"].any (text · == t)

/-! ### The kind of a scalar -/

/-- The kind of a text that starts with a digit or a sign. -/
def numberKind (moments : Bool) (t : Text) : Kind :=
  let plain := dropUnderscores t
  if moments && Timestamp.accepts t then .timestamp
  else if isIntegerIn unsigned? plain then .int
  else if (decimal? (dropSign plain)).any (·.isFinite) then .float
  else if isIntegerBehindBase plain then .int
  else .str

/-- The kind of a plain scalar. Moments are recognised on demand. -/
def kindWith (moments : Bool) (t : Text) : Kind :=
  match words.find? fun (word, _) => text word == t with
  | some (_, k) => k
  | none =>
    match t with
    | [] => .null
    | b :: _ =>
      if Text.isDigit b || b == 0x2B || b == 0x2D then numberKind moments t
      else if b == Text.dot && isFraction t then .float
      else .str

/-- The kind of a plain scalar. -/
def kind (t : Text) : Kind := kindWith true t

end ImportFinder.Yaml
