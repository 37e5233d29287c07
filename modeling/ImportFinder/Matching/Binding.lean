import ImportFinder.Matching.Occurrence
import ImportFinder.Text.Space

/-!
# Import bindings

The identifier that a statement `import <binding> from ...` binds. The binding
is an identifier or a group in braces, and may be followed by a comma and a
second one: a group, or `* as` with an identifier. Of a group the first entry
counts, and of an entry `a as b` the local name `b`.

`usage` counts how often an imported identifier occurs as a word on its line and
in the whole file. It is unused when the line accounts for every occurrence.
-/

namespace ImportFinder.Matching

/-- Whether a byte may stand between the words of an import statement. -/
def isGap (b : UInt8) : Bool := b == 0x20 || b == 0x09 || b == 0x0A || b == 0x0C || b == 0x0D

/-- Whether a byte may start an identifier. -/
def isIdentifierStart (b : UInt8) : Bool :=
  b == 0x24 || (isWordByte b && !(0x30 ≤ b && b ≤ 0x39))

/-- Whether a byte may go on in an identifier. -/
def isIdentifierByte (b : UInt8) : Bool := b == 0x24 || isWordByte b

/-- Whether a text is an identifier. -/
def isIdentifier : Text → Bool
  | [] => false
  | b :: rest => isIdentifierStart b && rest.all isIdentifierByte

/-- What follows a word at the start of a text. -/
def afterWord? (word t : Text) : Option Text :=
  if word.isPrefixOf t then some (t.drop word.length) else none

/-- What follows a gap of any length. -/
def afterGap (t : Text) : Text := t.dropWhile isGap

/-- What follows a gap of at least one byte. -/
def afterSomeGap? : Text → Option Text
  | [] => none
  | b :: rest => if isGap b then some (afterGap rest) else none

/-- The identifier at the start of a text, and what follows it. -/
def identifier? : Text → Option (Text × Text)
  | [] => none
  | b :: rest =>
    if isIdentifierStart b then
      some (b :: rest.takeWhile isIdentifierByte, rest.dropWhile isIdentifierByte)
    else none

/-- The opening brace. -/
abbrev openBrace : UInt8 := 0x7B

/-- The closing brace. -/
abbrev closeBrace : UInt8 := 0x7D

/-- The group in braces at the start of a text, braces included, and what
    follows it. -/
def group? : Text → Option (Text × Text)
  | [] => none
  | b :: rest =>
    if b = openBrace then
      match rest.dropWhile (· != closeBrace) with
      | [] => none
      | close :: after =>
        some (openBrace :: rest.takeWhile (· != closeBrace) ++ [close], after)
    else none

/-- The binding at the start of a text, and what follows it. -/
def binding? (t : Text) : Option (Text × Text) := (group? t).or (identifier? t)

/-- What follows `* as` and an identifier. -/
def afterNamespace? (t : Text) : Option Text := do
  let rest ← afterWord? [0x2A] t
  let rest ← afterWord? (text "as") (afterGap rest)
  let (_, rest) ← identifier? (← afterSomeGap? rest)
  return rest

/-- What follows an optional second binding, which a comma introduces. -/
def afterSecond? (t : Text) : Option Text :=
  match afterWord? [0x2C] (afterGap t) with
  | none => some t
  | some rest =>
    match group? (afterGap rest) with
    | some (_, rest) => some rest
    | none => afterNamespace? (afterGap rest)

/-- The binding of an import statement, which has to start the line. -/
def importBinding? (line : Text) : Option Text := do
  let rest ← afterSomeGap? (← afterWord? (text "import") (afterGap line))
  let (binding, rest) ← binding? rest
  let rest ← afterSomeGap? (← afterSecond? rest)
  let rest ← afterWord? (text "from") rest
  if rest.head?.any isWordByte then none else some binding

/-- Whether a byte is trimmed off the entries of a group. -/
def isPadding (b : UInt8) : Bool :=
  b == openBrace || b == closeBrace || b == Text.blank || b == Text.tab

/-- The first entry of a group. -/
def firstEntry (group : Text) : Text :=
  let inner := Text.trimBytes isPadding group
  let first := inner.takeWhile (· != 0x2C)
  Text.trimBytes isPadding (Text.trim first)

/-- The local name of an entry. -/
def localName (entry : Text) : Text :=
  match Text.fields entry with
  | [_, as_, name] => if as_ = text "as" then name else entry
  | _ => entry

/-- The identifier that an import statement on the line binds. -/
def importedName? (line : Text) : Option Text := do
  let binding ← importBinding? line
  if binding.head? = some openBrace then
    let name := localName (firstEntry binding)
    if isIdentifier name then some name else none
  else some binding

/-- How often an imported identifier occurs. -/
structure Usage where
  onLine : Nat
  inFile : Nat
  unused : Bool
  deriving DecidableEq, Repr

/-- The usage of an identifier imported on a line of a file. -/
def usage (name line content : Text) : Usage :=
  if name.isEmpty then ⟨0, 0, false⟩
  else
    let onLine := countOccurrences .word name line
    let inFile := countOccurrences .word name content
    ⟨onLine, inFile, inFile == 0 || inFile ≤ onLine⟩

end ImportFinder.Matching
