import ImportFinder.Log
import ImportFinder.Text.Quoted

/-!
# Message templates

A template is a text with directives. A directive starts with a percent sign and
ends with a verb, the letter that says how a value is written; between them stand
flags, a width and a precision, in this order. The values are taken one after the
other, unless a directive names one by its number in brackets. A star takes the
width or the precision from the values.

A template never fails. What is wrong with it shows up in the message: a value
that the verb cannot write, a value that is missing, values that are left over, a
bad number, or no verb at all.
-/

namespace ImportFinder.Log

/-- A value that fills a directive. -/
inductive Value
  | str (t : Text)
  | int (n : Int)
  | bool (b : Bool)
  | absent
  deriving DecidableEq, Repr

/-- A list of texts as a value: in brackets, with blanks between them. -/
def Value.ofList (items : List Text) : Value :=
  .str (text "[" ++ Text.joinWith [Text.blank] items ++ text "]")

namespace Template

/-- The word for the type of a value. -/
def typeName : Value → Text
  | .str _ => text "string"
  | .int _ => text "int"
  | .bool _ => text "bool"
  | .absent => text "<nil>"

/-- The flags, the width and the precision of a directive. -/
structure Layout where
  /-- Use the alternate form of the verb. -/
  sharp : Bool := false
  zero : Bool := false
  plus : Bool := false
  minus : Bool := false
  space : Bool := false
  /-- Write texts in quotes where they would stand for themselves. -/
  quotes : Bool := false
  width : Option Nat := none
  precision : Option Nat := none
  deriving DecidableEq, Repr

namespace Layout

/-! ### Writing values -/

variable (l : Layout)

/-- The padding that makes up for `n` missing columns. Zeros pad only to the
    left. -/
def padding (n : Nat) : Text :=
  List.replicate n (if l.zero && !l.minus then 0x30 else Text.blank)

/-- A text of `size` columns padded to the width. -/
def padTo (size : Nat) (t : Text) : Text :=
  let missing := l.padding (l.width.getD 0 - size)
  if l.minus then t ++ missing else missing ++ t

/-- A text padded to the width, counted in characters. -/
def pad (t : Text) : Text := l.padTo (Utf8.count t) t

/-- A text cut to the precision, counted in characters. -/
def cut (t : Text) : Text :=
  match l.precision with
  | none => t
  | some n => ((Utf8.decode t).take n).flatMap Utf8.Item.bytes

/-- A text as it is. -/
def writeText (t : Text) : Text := l.pad (l.cut t)

/-- A text in quotes. -/
def writeQuoted (t : Text) : Text :=
  let t := l.cut t
  if l.sharp && Text.isRaw t then l.pad (Text.backQuote :: t ++ [Text.backQuote])
  else l.pad (if l.plus then Text.quotedAscii t else Text.quoted t)

/-- The bytes of a text in base sixteen, on demand with blanks between them. -/
def writeBytes (digit : Nat → UInt8) (mark : UInt8) (t : Text) : Text :=
  let t := match l.precision with
    | none => t
    | some n => t.take n
  let mark := if l.sharp then [0x30, mark] else []
  let bytes := t.map fun b => Text.hex digit 2 b.toNat
  let body :=
    if t.isEmpty then []
    else if l.space then Text.joinWith [Text.blank] (bytes.map (mark ++ ·))
    else mark ++ bytes.flatten
  l.padTo body.length body

/-- The bases in which a number can be written. -/
inductive Base
  | two
  | eight
  | eightMarked
  | ten
  | sixteen
  | sixteenUpper
  deriving DecidableEq, Repr

/-- The digits of a number in a base. -/
def Base.digits : Base → Nat → Text
  | .two, n => Text.numeral Text.digit 2 n
  | .eight, n => Text.numeral Text.digit 8 n
  | .eightMarked, n => Text.numeral Text.digit 8 n
  | .ten, n => Text.numeral Text.digit 10 n
  | .sixteen, n => Text.numeral Text.digit 16 n
  | .sixteenUpper, n => Text.numeral Text.digitUpper 16 n

/-- The digits behind the mark of the alternate form. -/
def Base.marked (b : Base) (ds : Text) : Text :=
  match b with
  | .two => text "0b" ++ ds
  | .sixteen => text "0x" ++ ds
  | .sixteenUpper => text "0X" ++ ds
  | .ten => ds
  | _ => if ds.head? = some 0x30 then ds else 0x30 :: ds

/-- A number in a base. The precision is the least number of digits; without
    one, zeros may fill the width. Zero with precision zero has no digits. -/
def writeNumber (base : Base) (n : Int) : Text :=
  let blanks := { l with zero := false }
  if l.precision = some 0 ∧ n = 0 then blanks.padding (l.width.getD 0)
  else
    let signed := n < 0 || l.plus || l.space
    let least := match l.precision with
      | some p => p
      | none =>
        if l.zero && !l.minus then l.width.getD 0 - (if signed then 1 else 0) else 0
    let ds := base.digits n.natAbs
    let ds := List.replicate (least - ds.length) 0x30 ++ ds
    let ds := if l.sharp then base.marked ds else ds
    let ds := if base = .eightMarked then text "0o" ++ ds else ds
    let sign : Text :=
      if n < 0 then text "-" else if l.plus then text "+" else if l.space then text " " else []
    blanks.pad (sign ++ ds)

/-- A number as 64 bits without a sign. -/
def unsigned (n : Int) : Nat := (n % 0x10000000000000000).toNat

/-- The character with a number, if there is one. -/
def character (n : Int) : Char :=
  let u := unsigned n
  if h : u.isValidChar then Char.ofNatAux u h else Utf8.replacement

/-- A number as the name of a character, with the character itself in the
    alternate form. -/
def writeCodePoint (n : Int) : Text :=
  let u := unsigned n
  let c := character n
  let shown := l.sharp && u.isValidChar && Text.isPrintable c
  { l with zero := false }.pad (text "U+" ++
    Text.hex Text.digitUpper (max 4 (l.precision.getD 0)) u ++
    if shown then text " '" ++ Utf8.encodeChar c ++ text "'" else [])

/-- A value in its usual form. -/
def writeAny : Value → Text
  | .str t => if l.quotes then l.writeQuoted t else l.writeText t
  | .int n => l.writeNumber .ten n
  | .bool b => l.pad (if b then text "true" else text "false")
  | .absent => l.pad (text "<nil>")

/-- The mark for a value that a verb cannot write. -/
def mismatch (verb : Char) (v : Value) : Text :=
  text "%!" ++ Utf8.encodeChar verb ++ text "(" ++
    (if v = .absent then typeName v else typeName v ++ text "=" ++ l.writeAny v) ++ text ")"

/-- A text as a verb says. -/
def writeTextAs (verb : Char) (t : Text) : Text :=
  match verb with
  | 'v' => l.writeAny (.str t)
  | 's' => l.writeText t
  | 'x' => l.writeBytes Text.digit 0x78 t
  | 'X' => l.writeBytes Text.digitUpper 0x58 t
  | 'q' => l.writeQuoted t
  | _ => l.mismatch verb (.str t)

/-- A number as a verb says. -/
def writeNumberAs (verb : Char) (n : Int) : Text :=
  match verb with
  | 'v' | 'd' => l.writeNumber .ten n
  | 'b' => l.writeNumber .two n
  | 'o' => l.writeNumber .eight n
  | 'O' => l.writeNumber .eightMarked n
  | 'x' => l.writeNumber .sixteen n
  | 'X' => l.writeNumber .sixteenUpper n
  | 'c' => l.pad (Utf8.encodeChar (character n))
  | 'q' => l.pad (Text.quotedChar l.plus (character n))
  | 'U' => l.writeCodePoint n
  | _ => l.mismatch verb (.int n)

/-- A value as a verb says. -/
def write (verb : Char) (v : Value) : Text :=
  match verb, v with
  | 'v', .absent => l.writeAny .absent
  | 'T', .absent => l.writeAny .absent
  | _, .absent => l.mismatch verb .absent
  | 'T', v => l.writeText (typeName v)
  | _, .str t => l.writeTextAs verb t
  | _, .int n => l.writeNumberAs verb n
  | _, .bool b =>
    if verb = 'v' ∨ verb = 't' then l.writeAny (.bool b) else l.mismatch verb (.bool b)

/-- The layout for a verb: for values in general the alternate form means
    quotes, and a sign means nothing. -/
def forVerb (verb : Char) : Layout :=
  if verb = 'v' ∨ verb = 'w' then { l with quotes := l.sharp, sharp := false, plus := false } else l

end Layout

/-! ### Reading directives -/

/-- The largest width, precision or number of a value. -/
def mostColumns : Nat := 1000000

/-- The value of decimal digits. -/
def decimal (ds : Text) : Nat := ds.foldl (fun n b => n * 10 + Text.digitValue b) 0

/-- The number at the start of a text, and what follows it. A number that is far
    too large takes the whole text with it. -/
def number (t : Text) : Option Nat × Text :=
  let ds := t.takeWhile Text.isDigit
  if ds.isEmpty then (none, t)
  else if mostColumns < decimal ds.dropLast then (none, [])
  else (some (decimal ds), t.drop ds.length)

/-- How far a directive has been read. -/
structure Reading where
  rest : Text
  /-- The position of the value to be taken next. -/
  next : Nat
  /-- Whether some directive has named a value by its number. -/
  reordered : Bool
  layout : Layout := {}
  /-- Whether every number of a value was good. -/
  good : Bool := true
  /-- Whether a number of a value was read last. -/
  numbered : Bool := false
  /-- The marks for bad widths and precisions. -/
  marks : Text := []

namespace Reading

/-- Reads the flags. -/
def flags (l : Layout) : Text → Layout × Text
  | [] => (l, [])
  | b :: rest =>
    if b = 0x23 then flags { l with sharp := true } rest
    else if b = 0x30 then flags { l with zero := true } rest
    else if b = 0x2B then flags { l with plus := true } rest
    else if b = 0x2D then flags { l with minus := true } rest
    else if b = Text.blank then flags { l with space := true } rest
    else (l, b :: rest)

/-- What follows a byte, if it comes next. -/
def skip? (r : Reading) (b : UInt8) : Option Text :=
  match r.rest with
  | c :: rest => if b = c then some rest else none
  | [] => none

/-- Reads the number of a value in brackets, if there is one. -/
def readNumber (values : List Value) (r : Reading) : Reading :=
  match r.skip? 0x5B with
  | none => { r with numbered := false }
  | some inner =>
    let bad := { r with reordered := true, good := false, numbered := false }
    if r.rest.length < 3 then { bad with rest := inner }
    else match Text.splitFirst 0x5D inner with
      | none => { bad with rest := inner }
      | some (digits, rest) =>
        match number digits with
        | (some n, []) =>
          if 1 ≤ n && n ≤ values.length then
            { r with reordered := true, numbered := true, rest, next := n - 1 }
          else { bad with numbered := true, rest }
        | _ => { bad with rest }

/-- Takes a number from the values. -/
def takeNumber (values : List Value) (r : Reading) : Option Int × Reading :=
  match values.drop r.next with
  | [] => (none, r)
  | v :: _ =>
    let r := { r with next := r.next + 1 }
    match v with
    | .int n => if n.natAbs ≤ mostColumns then (some n, r) else (none, r)
    | _ => (none, r)

/-- Reads the width, if there is one. -/
def readWidth (values : List Value) (r : Reading) : Reading :=
  match r.skip? 0x2A with
  | some rest =>
    let (n?, r) := takeNumber values { r with rest, numbered := false }
    match n? with
    | none => { r with marks := r.marks ++ text "%!(BADWIDTH)" }
    | some n =>
      if n < 0 then
        { r with layout := { r.layout with width := some n.natAbs, minus := true, zero := false } }
      else { r with layout := { r.layout with width := some n.natAbs } }
  | none =>
    let (width, rest) := number r.rest
    { r with
      rest
      layout := { r.layout with width }
      good := r.good && !(r.numbered && width.isSome) }

/-- Reads the precision, if there is one. A point alone stands for zero. -/
def readPrecision (values : List Value) (r : Reading) : Reading :=
  match r.skip? Text.dot with
  | none => r
  | some rest =>
    let r := readNumber values { r with rest, good := r.good && !r.numbered }
    match r.skip? 0x2A with
    | some rest =>
      let (n?, r) := takeNumber values { r with rest, numbered := false }
      match n? with
      | some (.ofNat n) => { r with layout := { r.layout with precision := some n } }
      | _ => { r with marks := r.marks ++ text "%!(BADPREC)" }
    | none =>
      let (n?, rest) := number r.rest
      { r with rest, layout := { r.layout with precision := some (n?.getD 0) } }

/-- Reads everything up to the verb. -/
def readLayout (values : List Value) (r : Reading) : Reading :=
  let (layout, rest) := flags {} r.rest
  let r := readNumber values { r with layout, rest }
  let r := readPrecision values (readWidth values r)
  if r.numbered then r else readNumber values r

end Reading

/-- The verb at the start of a text, and what follows it. -/
def verb? (t : Text) : Option (Char × Text) :=
  match t with
  | [] => none
  | _ :: rest =>
    match Utf8.leading t with
    | some (c, n) => some (c, t.drop n)
    | none => some (Utf8.replacement, rest)

/-- The mark for the values that are left over. -/
def leftOver (values : List Value) : Text :=
  if values.isEmpty then []
  else text "%!(EXTRA " ++ Text.joinWith (text ", ") (values.map fun v =>
    if v = .absent then typeName v else typeName v ++ text "=" ++ Layout.writeAny {} v) ++ text ")"

/-- Fills the directives of a text. `fuel` bounds their number. -/
def fillFrom (values : List Value) : (fuel next : Nat) → (reordered : Bool) → Text → Text
  | 0, _, _, t => t
  | fuel + 1, next, reordered, t =>
    let (before, rest) := t.span (· != 0x25)
    before ++ match rest with
      | [] => if reordered then [] else leftOver (values.drop next)
      | _ :: rest =>
        let r := Reading.readLayout values { rest, next, reordered }
        r.marks ++ match verb? r.rest with
          | none =>
            text "%!(NOVERB)" ++ if r.reordered then [] else leftOver (values.drop r.next)
          | some (verb, rest) =>
            let mark (word : String) : Text :=
              text "%!" ++ Utf8.encodeChar verb ++ text "(" ++ text word ++ text ")"
            if verb = '%' then text "%" ++ fillFrom values fuel r.next r.reordered rest
            else if !r.good then
              mark "BADINDEX" ++ fillFrom values fuel r.next r.reordered rest
            else match values.drop r.next with
              | [] => mark "MISSING" ++ fillFrom values fuel r.next r.reordered rest
              | v :: _ =>
                (r.layout.forVerb verb).write verb v ++
                  fillFrom values fuel (r.next + 1) r.reordered rest

/-- A template filled with values. -/
def fill (template : Text) (values : List Value) : Text :=
  fillFrom values (template.length + 1) 0 false template

end Template

/-- What the console shows of a message given as a template. A message without
    values is shown as it is. -/
def consoleLine (verbose : Bool) (level : Level) (template : Text) (values : List Value) : Text :=
  if level.isShown verbose then
    let line := level.mark ++ template ++ [Text.newline]
    if values.isEmpty then line else Template.fill line values
  else []

/-- The entry of a message given as a template. -/
def Entry.ofTemplate (level : Level) (template : Text) (values : List Value) : Entry :=
  ⟨level, Template.fill template values⟩

end ImportFinder.Log
