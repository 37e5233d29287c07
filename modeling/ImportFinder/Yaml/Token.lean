import ImportFinder.Yaml.Source

/-!
# YAML tokens

A YAML text is a sequence of tokens: the indicators of the notation, and the
starts and ends of block collections, which only the indentation shows.

A key needs no indicator of its own, since the colon behind it shows what it is.
So every token at which a key may start is remembered, and when the colon follows
on the same line, at most 1024 characters later, the token for the key is put
before it. In block collections a line that starts at the indentation has to be a
key.

`tokens` reads as far as it can; the last token tells whether the text ended
there or is malformed.
-/

namespace ImportFinder.Yaml

/-- What a token is. -/
inductive Token
  | streamEnd
  | version (major minor : Nat)
  | handle (name expansion : Text)
  | documentStart
  | documentEnd
  | blockSequence
  | blockMapping
  | blockEnd
  | flowSequence
  | flowSequenceEnd
  | flowMapping
  | flowMappingEnd
  | blockEntry
  | flowEntry
  | key
  | value
  | alias (name : Text)
  | anchor (name : Text)
  | tag (handle suffix : Text)
  | scalar (value : Text) (quoted : Bool)
  | malformed (why : Text)
  deriving DecidableEq, Repr

/-- A token and the number of lines before it. -/
structure Placed where
  token : Token
  line : Nat
  deriving DecidableEq, Repr

/-! ### Scalars

Every function here is given the rest of the text behind the start of the scalar,
and gives the value together with what follows it. -/

/-- What a part of the text gives: a value and the rest, or why it is malformed. -/
abbrev Read (α : Type) := Except Text (α × List Char)

/-- Refuses a text. -/
def refuse {α : Type} (why : String) : Except Text α := .error (text why)

/-- The value of hexadecimal digits. -/
def hexDigits? (cs : List Char) : Option Nat :=
  cs.foldl (fun n c => do
    let d ← if c.toNat < 0x80 then Text.hexValue? (UInt8.ofNat c.toNat) else none
    return (← n) * 16 + d) (some 0)

/-- The character that a letter stands for behind a backslash. -/
def unescape? (c : Char) : Option Char :=
  match c with
  | '0' => some (Char.ofNat 0x00)
  | 'a' => some (Char.ofNat 0x07)
  | 'b' => some (Char.ofNat 0x08)
  | 't' => some '\t'
  | '\t' => some '\t'
  | 'n' => some '\n'
  | 'v' => some (Char.ofNat 0x0B)
  | 'f' => some (Char.ofNat 0x0C)
  | 'r' => some '\r'
  | 'e' => some (Char.ofNat 0x1B)
  | ' ' => some ' '
  | '"' => some '"'
  | '\'' => some '\''
  | '\\' => some '\\'
  | 'N' => some (Char.ofNat 0x85)
  | '_' => some (Char.ofNat 0xA0)
  | 'L' => some (Char.ofNat 0x2028)
  | 'P' => some (Char.ofNat 0x2029)
  | _ => none

/-- The number of hexadecimal digits behind a letter. -/
def escapeDigits (c : Char) : Nat :=
  match c with
  | 'x' => 2
  | 'u' => 4
  | 'U' => 8
  | _ => 0

/-- The character that an escape behind its backslash stands for. -/
def escaped? (cs : List Char) : Read Char :=
  match cs with
  | [] => refuse "found unexpected end of stream"
  | c :: rest =>
    match escapeDigits c with
    | 0 =>
      match unescape? c with
      | some d => .ok (d, rest)
      | none => refuse "found unknown escape character"
    | n =>
      let digits := rest.take n
      match if digits.length = n then hexDigits? digits else none with
      | none => refuse "did not find expected hexadecimal number"
      | some code =>
        if code.isValidChar then .ok (Char.ofNat code, rest.drop n)
        else refuse "found invalid Unicode character escape code"

/-- A quoted scalar. `value` is what has been read, backwards, and `lineStart`
    says whether the rest starts in the first column. -/
def quotedScalar (quote : Char) :
    (fuel : Nat) → (lineStart : Bool) → (value rest : List Char) → Read (List Char)
  | 0, _, _, _ => refuse "found unexpected end of stream"
  | _ + 1, _, _, [] => refuse "found unexpected end of stream"
  | fuel + 1, lineStart, value, c :: rest =>
    if lineStart && atDocumentMark (c :: rest) then refuse "found unexpected document indicator"
    else if isGap c then
      let gap := (c :: rest).takeWhile isGap
      quotedScalar quote fuel (gap.getLast?.any isBreak) ((gapValue gap).reverse ++ value)
        ((c :: rest).drop gap.length)
    else if c = quote then
      if quote = '\'' ∧ rest.head? = some '\'' then
        quotedScalar quote fuel false ('\'' :: value) (rest.drop 1)
      else .ok (value.reverse, rest)
    else if quote = '"' ∧ c = '\\' then
      match lineBreak? rest with
      | some (_, rest) =>
        let gap := rest.takeWhile isGap
        quotedScalar quote fuel (gap.getLast?.all isBreak) ((breaksOf gap).reverse ++ value)
          (rest.drop gap.length)
      | none =>
        match escaped? rest with
        | .ok (d, rest) => quotedScalar quote fuel false (d :: value) rest
        | .error why => .error why
    else quotedScalar quote fuel false (c :: value) rest

/-- The part of a plain scalar up to the next gap or indicator. -/
def plainRun (inFlow : Bool) : List Char → List Char
  | [] => []
  | c :: rest =>
    if isGap c || (c == ':' && atGap rest) || (inFlow && ",?[]\x7b\x7d".toList.contains c) then []
    else c :: plainRun inFlow rest

/-- Whether a tabulator stands in a gap behind a line break before column
    `indent`. The column is known from the first line break on. -/
def hasBadTab (indent : Nat) : (column : Option Nat) → (gap : List Char) → Bool
  | _, [] => false
  | column, c :: rest =>
    if isBreak c then hasBadTab indent (some 0) rest
    else column.any (fun k => c == '\t' && k < indent) || hasBadTab indent (column.map (· + 1)) rest

/-- A plain scalar. `value` is what has been read, backwards, `gap` stands between
    it and the rest, whose position is `pos`. Gives the value, and whether a line
    break behind it has been passed. -/
def plainScalar (inFlow : Bool) (indent : Nat) :
    (fuel : Nat) → (value gap : List Char) → (pos : Position) → (rest : List Char) →
    Read (List Char × Bool)
  | 0, value, gap, _, rest => .ok ((value.reverse, gap.any isBreak), rest)
  | fuel + 1, value, gap, pos, rest =>
    if (pos.column = 0 && atDocumentMark rest) || rest.head? = some '#' then
      .ok ((value.reverse, gap.any isBreak), rest)
    else
      match plainRun inFlow rest with
      | [] => .ok ((value.reverse, gap.any isBreak), rest)
      | run =>
        let value := run.reverse ++ (gapValue gap).reverse ++ value
        let pos := pos.over run
        let rest := rest.drop run.length
        let gap := rest.takeWhile isGap
        if gap.isEmpty then .ok ((value.reverse, false), rest)
        else if hasBadTab indent none gap then
          refuse "found a tab character that violates indentation"
        else
          let pos := pos.over gap
          let rest := rest.drop gap.length
          if !inFlow && pos.column < indent then .ok ((value.reverse, gap.any isBreak), rest)
          else plainScalar inFlow indent fuel value gap pos rest

/-! ### Block scalars -/

/-- What becomes of the line breaks at the end of a block scalar. -/
inductive Chomping
  | strip
  | clip
  | keep
  deriving DecidableEq, Repr

/-- The header of a block scalar: the chomping and the indentation, in any
    order, `0` if the indentation is not given. -/
def blockHeader (cs : List Char) : Read (Chomping × Nat) :=
  let chomping? : List Char → Chomping × List Char
    | '+' :: rest => (.keep, rest)
    | '-' :: rest => (.strip, rest)
    | cs => (.clip, cs)
  let digit? : List Char → Nat × List Char
    | c :: rest => if c.isDigit then (c.toNat - 0x30, rest) else (10, c :: rest)
    | [] => (10, [])
  let (chomping, rest) := chomping? cs
  let (indent, rest) := digit? rest
  let (chomping, rest) :=
    if rest.length = cs.length ∨ chomping ≠ .clip then (chomping, rest) else chomping? rest
  if indent = 0 then refuse "found an indentation indicator equal to 0"
  else .ok ((chomping, if indent = 10 then 0 else indent), rest)

/-- Passes a comment and the line break behind it; nothing else may stand
    there. -/
def endLine (cs : List Char) : Except Text (List Char) :=
  let cs := cs.dropWhile isBlank
  let cs := if cs.head? = some '#' then cs.dropWhile (!isBreak ·) else cs
  match cs with
  | [] => .ok []
  | cs =>
    match lineBreak? cs with
    | some (_, rest) => .ok rest
    | none => refuse "did not find expected comment or line break"

/-- Passes indentation and empty lines of a block scalar whose indentation is
    `indent`, `0` if it is not known. Gives the line breaks, backwards behind
    those given, the column that is reached and the largest one passed. -/
def blockBreaks (indent : Nat) :
    (fuel : Nat) → (breaks : List Char) → (deepest : Nat) → (rest : List Char) →
    Read (List Char × Nat × Nat)
  | 0, breaks, deepest, rest => .ok ((breaks, 0, deepest), rest)
  | fuel + 1, breaks, deepest, rest =>
    let blanks := rest.takeWhile (· == ' ')
    let column := if indent = 0 then blanks.length else min indent blanks.length
    let rest := rest.drop column
    let deepest := max deepest column
    if (indent = 0 || column < indent) && rest.head? = some '\t' then
      refuse "found a tab character where an indentation space is expected"
    else match lineBreak? rest with
      | some (b, rest) => blockBreaks indent fuel (b :: breaks) deepest rest
      | none => .ok ((breaks, column, deepest), rest)

/-- The lines of a block scalar at `indent`. `value` is what has been read,
    backwards; `lead` is the line break behind its last line, `breaks` are the
    further ones, backwards, and `blankLine` says whether that line started with
    a blank. -/
def blockLines (isLiteral : Bool) (chomping : Chomping) (indent : Nat) :
    (fuel : Nat) → (value lead breaks : List Char) → (blankLine : Bool) → (column : Nat) →
    (rest : List Char) → Read (List Char)
  | 0, value, _, _, _, _, rest => .ok (value.reverse, rest)
  | fuel + 1, value, lead, breaks, blankLine, column, rest =>
    if column ≠ indent ∨ rest.isEmpty then
      let value := if chomping = .strip then value else lead ++ value
      let value := if chomping = .keep then breaks ++ value else value
      .ok (value.reverse, rest)
    else
      let startsBlank := rest.head?.any isBlank
      let joins := !isLiteral && !blankLine && !startsBlank && lead.head? = some '\n'
      let glue := if joins then (if breaks.isEmpty then [' '] else []) else lead
      let line := rest.takeWhile (!isBreak ·)
      let value := line.reverse ++ breaks ++ glue ++ value
      let rest := rest.drop line.length
      let (lead, rest) := match lineBreak? rest with
        | some (b, rest) => ([b], rest)
        | none => ([], rest)
      match blockBreaks indent (rest.length + 1) [] 0 rest with
      | .error why => .error why
      | .ok ((breaks, column, _), rest) =>
        blockLines isLiteral chomping indent fuel value lead breaks startsBlank column rest

/-- A block scalar inside a collection at `parent`, from behind its indicator. -/
def blockScalar (isLiteral : Bool) (parent : Int) (cs : List Char) :
    Except Text (List Char × List Char) := do
  let ((chomping, increment), rest) ← blockHeader cs
  let rest ← endLine rest
  let fixed := if increment = 0 then 0 else (max parent 0).toNat + increment
  let ((breaks, column, deepest), rest) ← blockBreaks fixed (rest.length + 1) [] 0 rest
  let indent := if fixed = 0 then max deepest (max (parent + 1).toNat 1) else fixed
  blockLines isLiteral chomping indent (rest.length + 1) [] [] breaks false column rest

/-! ### Anchors, tags and directives -/

/-- Whether a character may stand in the name of an anchor or a handle. -/
def isNameChar (c : Char) : Bool :=
  (c.toNat < 0x80 && c.isAlphanum) || c == '_' || c == '-'

/-- The name of an anchor or an alias. -/
def anchorName (cs : List Char) : Read Text :=
  let name := cs.takeWhile isNameChar
  let rest := cs.drop name.length
  if name.isEmpty || !(atGap rest || rest.head?.any ("?:,]\x7d%@`".toList.contains ·)) then
    refuse "did not find expected alphabetic or numeric character"
  else .ok (Utf8.encode name, rest)

/-- Whether a character may stand in the name of a tag. -/
def isTagChar (c : Char) : Bool := isNameChar c || ";/?:@&=+$,.!~*'()[]%".toList.contains c

/-- The bytes that a tag name stands for, with its escapes read. They have to be
    valid UTF-8. -/
def tagBytes? : List Char → Option Text
  | [] => some []
  | '%' :: a :: b :: rest => do
    let n ← hexDigits? [a, b]
    let more ← tagBytes? rest
    return UInt8.ofNat n :: more
  | c :: rest => if c = '%' then none else (tagBytes? rest).map (Utf8.encodeChar c ++ ·)

/-- The name of a tag. -/
def tagName (cs : List Char) : Read Text :=
  let name := cs.takeWhile isTagChar
  match tagBytes? name with
  | some bytes =>
    if Utf8.valid bytes then .ok (bytes, cs.drop name.length)
    else refuse "found an incorrect UTF-8 octet"
  | none => refuse "did not find URI escaped octet"

/-- The handle of a tag: an exclamation mark, a name, and perhaps a second
    exclamation mark. -/
def tagHandle (cs : List Char) : Read (List Char) :=
  match cs with
  | '!' :: rest =>
    let name := rest.takeWhile isNameChar
    match rest.drop name.length with
    | '!' :: rest => .ok ('!' :: name ++ ['!'], rest)
    | rest => .ok ('!' :: name, rest)
  | _ => refuse "did not find expected '!'"

/-- A tag. -/
def tagToken (cs : List Char) : Except Text (Token × List Char) := do
  let (token, rest) ← match cs with
    | '!' :: '<' :: rest =>
      let (suffix, rest) ← tagName rest
      match rest with
      | '>' :: rest =>
        if suffix.isEmpty then refuse "did not find expected tag URI"
        else .ok (Token.tag [] suffix, rest)
      | _ => refuse "did not find the expected '>'"
    | cs =>
      let (handle, rest) ← tagHandle cs
      if 1 < handle.length && handle.getLast? = some '!' then
        let (suffix, rest) ← tagName rest
        if suffix.isEmpty then refuse "did not find expected tag URI"
        else .ok (Token.tag (Utf8.encode handle) suffix, rest)
      else
        let (more, rest) ← tagName rest
        let suffix := Utf8.encode (handle.drop 1) ++ more
        if suffix.isEmpty then .ok (Token.tag [] (text "!"), rest)
        else .ok (Token.tag (text "!") suffix, rest)
  if atGap rest then .ok (token, rest) else refuse "did not find expected whitespace or line break"

/-- A version number of one or two digits. -/
def versionNumber (cs : List Char) : Read Nat :=
  let digits := cs.takeWhile (·.isDigit)
  if digits.isEmpty then refuse "did not find expected version number"
  else if 2 < digits.length then refuse "found extremely long version number"
  else .ok (digits.foldl (fun n c => n * 10 + (c.toNat - 0x30)) 0, cs.drop digits.length)

/-- A directive from behind its percent sign. -/
def directive (cs : List Char) : Except Text (Token × List Char) := do
  let name := cs.takeWhile isNameChar
  let rest := cs.drop name.length
  if name.isEmpty then refuse "could not find expected directive name"
  else if !atGap rest then refuse "found unexpected non-alphabetical character"
  else
    let rest := rest.dropWhile isBlank
    if name = "YAML".toList then
      let (major, rest) ← versionNumber rest
      match rest with
      | '.' :: rest =>
        let (minor, rest) ← versionNumber rest
        return (.version major minor, ← endLine rest)
      | _ => refuse "did not find expected digit or '.' character"
    else if name = "TAG".toList then
      let (handle, rest) ← tagHandle rest
      if handle ≠ ['!'] ∧ (handle.length < 2 ∨ handle.getLast? ≠ some '!') then
        refuse "did not find expected '!'"
      else if !rest.head?.any isBlank then refuse "did not find expected whitespace"
      else
        let (expansion, rest) ← tagName (rest.dropWhile isBlank)
        if expansion.isEmpty then refuse "did not find expected tag URI"
        else if !atGap rest then refuse "did not find expected whitespace or line break"
        else return (.handle (Utf8.encode handle) expansion, ← endLine rest)
    else refuse "found unknown directive name"

/-! ### The state of the reader -/

/-- A place where a key may have started. -/
structure KeyStart where
  /-- Whether it has to be a key. -/
  required : Bool
  /-- The number of tokens before it. -/
  before : Nat
  pos : Position
  deriving DecidableEq, Repr

/-- The state of the reader. -/
structure Lexer where
  rest : List Char
  pos : Position := {}
  /-- The number of flow collections around the rest. -/
  flow : Nat := 0
  /-- The column of the innermost block collection, `-1` outside of all. -/
  indent : Int := -1
  /-- The columns of the block collections around it. -/
  indents : List Int := []
  /-- Whether a key may start here. -/
  keyAllowed : Bool := true
  /-- Where a key may have started in the innermost flow collection. -/
  keyStart : Option KeyStart := none
  /-- The same for the collections around it. -/
  outerKeys : List (Option KeyStart) := []
  /-- The tokens read so far, backwards. -/
  found : List Placed := []

namespace Lexer

/-- The reader behind the characters up to a given rest. -/
def moveTo (s : Lexer) (rest : List Char) : Lexer :=
  { s with rest, pos := s.pos.over (s.rest.take (s.rest.length - rest.length)) }

/-- The reader behind one character. -/
def skip (s : Lexer) : Lexer := s.moveTo (s.rest.drop 1)

/-- Adds a token that stands at a position. -/
def emit (s : Lexer) (token : Token) (at_ : Position) : Lexer :=
  { s with found := ⟨token, at_.line⟩ :: s.found }

/-- Puts a token behind the first `before` tokens. -/
def insert (s : Lexer) (before : Nat) (p : Placed) : Lexer :=
  let later := s.found.length - before
  { s with found := s.found.take later ++ p :: s.found.drop later }

/-- Forgets where a key may have started. -/
def dropKey (s : Lexer) : Except Text Lexer :=
  if s.keyStart.any (·.required) then refuse "could not find expected ':'"
  else .ok { s with keyStart := none }

/-- Remembers that a key may start here. -/
def saveKey (s : Lexer) : Except Text Lexer :=
  if s.keyAllowed then do
    let required := s.flow = 0 && s.indent = s.pos.column
    let s ← s.dropKey
    return { s with keyStart := some ⟨required, s.found.length, s.pos⟩ }
  else .ok s

/-- The longest distance between the start of a key and its colon. -/
def longestKey : Nat := 1024

/-- Where the key before a colon started, if there is one. -/
def currentKey (s : Lexer) : Except Text (Option KeyStart) :=
  match s.keyStart with
  | none => .ok none
  | some k =>
    if k.pos.line < s.pos.line ∨ k.pos.index + longestKey < s.pos.index then
      if k.required then refuse "could not find expected ':'" else .ok none
    else .ok (some k)

/-- Starts a block collection at a column, unless one is open there. Its token
    is put behind the first `before` tokens. -/
def openBlock (s : Lexer) (token : Token) (before : Nat) (at_ : Position) : Lexer :=
  if s.flow = 0 ∧ s.indent < at_.column then
    { s with indents := s.indent :: s.indents, indent := at_.column }.insert before
      ⟨token, at_.line⟩
  else s

/-- Ends the block collections that start behind a column. -/
def closeBlocks (s : Lexer) (column : Int) : Lexer :=
  if s.flow = 0 then
    let rec close (indent : Int) (indents : List Int) (found : List Placed) : Lexer :=
      if column < indent then
        let found := ⟨.blockEnd, s.pos.line⟩ :: found
        match indents with
        | [] => { s with indent := -1, indents := [], found }
        | outer :: indents => close outer indents found
      else { s with indent, indents, found }
    close s.indent s.indents s.found
  else s

/-! ### Between tokens -/

/-- Passes comment lines, with all white space before each of them. -/
def skipComments : (fuel : Nat) → List Char → List Char
  | 0, cs => cs
  | fuel + 1, cs =>
    match cs.dropWhile isGap with
    | '#' :: more => skipComments fuel (more.dropWhile (!isBreak ·))
    | _ => cs

/-- Passes white space and comments up to the next token. A tabulator may not
    stand where a key may start in block collections. -/
def skipGap : (fuel : Nat) → Lexer → Lexer
  | 0, s => s
  | fuel + 1, s =>
    let blank := fun c => c == ' ' || (c == '\t' && (s.flow != 0 || !s.keyAllowed))
    let rest := s.rest.dropWhile blank
    let rest := if rest.head? = some '#' then skipComments rest.length rest else rest
    match lineBreak? rest with
    | some (_, rest) =>
      skipGap fuel { s.moveTo rest with keyAllowed := s.flow == 0 || s.keyAllowed }
    | none => s.moveTo rest

/-- Passes a comment on the line of the token that has just been read. A dash
    has no such comment. -/
def skipLineComment (s : Lexer) : Lexer :=
  if s.pos.fresh || s.found.head?.any (·.token == .blockEntry) then s
  else match s.rest.dropWhile isBlank with
    | '#' :: more => s.moveTo (more.dropWhile (!isBreak ·))
    | _ => s

/-! ### Reading a token -/

/-- Reads a token that may start a key. -/
def readKeyed (s : Lexer) (rest : List Char) (token : Token) : Except Text Lexer := do
  let at_ := s.pos
  let s ← s.saveKey
  return ({ s with keyAllowed := false }.moveTo rest).emit token at_

/-- Reads a mark or directive, which ends all block collections. -/
def readMark (s : Lexer) (rest : List Char) (token : Token) : Except Text Lexer := do
  let at_ := s.pos
  let s ← (s.closeBlocks (-1)).dropKey
  return ({ s with keyAllowed := false }.moveTo rest).emit token at_

/-- Reads the start of a flow collection. -/
def readFlowStart (s : Lexer) (token : Token) : Except Text Lexer := do
  let at_ := s.pos
  let s ← s.saveKey
  return ({ s with
    flow := s.flow + 1
    outerKeys := s.keyStart :: s.outerKeys
    keyStart := none
    keyAllowed := true }.skip).emit token at_

/-- Reads the end of a flow collection. -/
def readFlowEnd (s : Lexer) (token : Token) : Except Text Lexer := do
  let at_ := s.pos
  let s ← s.dropKey
  let s := match s.flow, s.outerKeys with
    | flow + 1, keyStart :: outerKeys => { s with flow, keyStart, outerKeys }
    | _, _ => s
  return ({ s with keyAllowed := false }.skip).emit token at_

/-- Reads the comma between items. -/
def readFlowEntry (s : Lexer) : Except Text Lexer := do
  let at_ := s.pos
  let s ← s.dropKey
  return ({ s with keyAllowed := true }.skip).emit .flowEntry at_

/-- Reads the dash before an item. -/
def readBlockEntry (s : Lexer) : Except Text Lexer := do
  let at_ := s.pos
  if s.flow = 0 ∧ !s.keyAllowed then
    refuse "block sequence entries are not allowed in this context"
  else
    let s ← (s.openBlock .blockSequence s.found.length at_).dropKey
    return ({ s with keyAllowed := true }.skip).emit .blockEntry at_

/-- Reads the question mark before a key. -/
def readKey (s : Lexer) : Except Text Lexer := do
  let at_ := s.pos
  if s.flow = 0 ∧ !s.keyAllowed then
    refuse "mapping keys are not allowed in this context"
  else
    let s ← (s.openBlock .blockMapping s.found.length at_).dropKey
    return ({ s with keyAllowed := s.flow == 0 }.skip).emit .key at_

/-- Reads the colon before a value. -/
def readValue (s : Lexer) : Except Text Lexer := do
  let at_ := s.pos
  match ← s.currentKey with
  | some k =>
    let s := s.insert k.before ⟨.key, k.pos.line⟩
    let s := s.openBlock .blockMapping k.before k.pos
    return ({ s with keyStart := none, keyAllowed := false }.skip).emit .value at_
  | none =>
    if s.flow = 0 ∧ !s.keyAllowed then
      refuse "mapping values are not allowed in this context"
    else
      let s := { s with keyStart := none }.openBlock .blockMapping s.found.length at_
      return ({ s with keyAllowed := s.flow == 0 }.skip).emit .value at_

/-- Reads a block scalar. -/
def readBlockScalar (s : Lexer) (isLiteral : Bool) : Except Text Lexer := do
  let at_ := s.pos
  let s ← s.dropKey
  let (value, rest) ← blockScalar isLiteral s.indent (s.rest.drop 1)
  return ({ s with keyAllowed := true }.moveTo rest).emit (.scalar (Utf8.encode value) true) at_

/-- Reads a plain scalar. -/
def readPlain (s : Lexer) : Except Text Lexer := do
  let ((value, passed), rest) ←
    plainScalar (s.flow != 0) (s.indent + 1).toNat (s.rest.length + 1) [] [] s.pos s.rest
  let s ← s.readKeyed rest (.scalar (Utf8.encode value) false)
  return { s with keyAllowed := s.keyAllowed || passed }

/-- Reads a token that is no mark and no directive. -/
def readToken (s : Lexer) : Except Text Lexer :=
  match s.rest with
  | [] => .ok s
  | c :: rest =>
    if c = '[' then s.readFlowStart .flowSequence
    else if c = '\x7b' then s.readFlowStart .flowMapping
    else if c = ']' then s.readFlowEnd .flowSequenceEnd
    else if c = '\x7d' then s.readFlowEnd .flowMappingEnd
    else if c = ',' then s.readFlowEntry
    else if c = '-' ∧ atGap rest then s.readBlockEntry
    else if c = '?' ∧ (s.flow ≠ 0 ∨ atGap rest) then s.readKey
    else if c = ':' ∧ (s.flow ≠ 0 ∨ atGap rest) then s.readValue
    else if c = '*' then do
      let (name, rest) ← anchorName rest
      s.readKeyed rest (.alias name)
    else if c = '&' then do
      let (name, rest) ← anchorName rest
      s.readKeyed rest (.anchor name)
    else if c = '!' then do
      let (token, rest) ← tagToken (c :: rest)
      s.readKeyed rest token
    else if c = '|' ∧ s.flow = 0 then s.readBlockScalar true
    else if c = '>' ∧ s.flow = 0 then s.readBlockScalar false
    else if c = '\'' ∨ c = '"' then do
      let (value, rest) ← quotedScalar c (rest.length + 1) false [] rest
      s.readKeyed rest (.scalar (Utf8.encode value) true)
    else if c = '-' ∨ ((c = '?' ∨ c = ':') ∧ s.flow = 0) ∨
        !(isGap c || "?:,[]\x7b\x7d#&*!|>'\"%@`".toList.contains c) then s.readPlain
    else refuse "found character that cannot start any token"

/-- Reads up to the end of the text. -/
def readEnd (s : Lexer) : Except Text Lexer := do
  let s ← (s.closeBlocks (-1)).dropKey
  return s.emit .streamEnd s.pos

/-- Reads up to and including the next token. -/
def next (s : Lexer) : Except Text Lexer := do
  let s := skipGap (s.rest.length + 1) s
  let s := s.closeBlocks s.pos.column
  match s.rest with
  | [] => s.readEnd
  | c :: rest =>
    if s.pos.column = 0 ∧ c = '%' then do
      let (token, rest) ← directive rest
      s.readMark rest token
    else if s.pos.column = 0 ∧ atDocumentMark s.rest then
      s.readMark (s.rest.drop 3) (if c = '-' then .documentStart else .documentEnd)
    else return (← s.readToken).skipLineComment

/-- The tokens from a state on, up to the end of the text or as far as it is well
    formed. -/
def run : (fuel : Nat) → Lexer → List Placed
  | 0, s => s.found.reverse
  | fuel + 1, s =>
    match s.next with
    | .error why => (⟨.malformed why, s.pos.line⟩ :: s.found).reverse
    | .ok s => if s.found.head?.any (·.token == .streamEnd) then s.found.reverse else run fuel s

/-- The reader of a text. A byte order mark that is left there is passed, but not as a
    line of its own: what follows stands in the next column. -/
def start (cs : List Char) : Lexer :=
  let s : Lexer := { rest := cs }
  if cs.head?.any (·.toNat == 0xFEFF) then s.skip else s

end Lexer

/-- The tokens of a YAML text. -/
def tokens (cs : List Char) : List Placed := Lexer.run (cs.length + 1) (.start cs)

end ImportFinder.Yaml
