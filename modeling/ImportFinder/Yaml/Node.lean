import ImportFinder.Yaml.Token

/-!
# YAML nodes

The tree that a YAML text stands for: scalars, sequences and mappings, each with
its tag and its line. An alias stands for the node that was anchored under its
name last; since it may stand inside that node, aliases refer to anchored nodes by
number, and the nodes themselves are kept beside the tree.

Only the first document of a text is read. What follows it may be anything, as
long as the next tokens are well formed.
-/

namespace ImportFinder.Yaml

/-! ### The tree -/

/-- A node. Lines are counted from one. -/
inductive Node
  | scalar (line : Nat) (tag value : Text)
  | sequence (line : Nat) (tag : Text) (items : List Node)
  | mapping (line : Nat) (tag : Text) (entries : List (Node × Node))
  /-- An alias has a number of its own and that of the node it stands for. -/
  | alias (line : Nat) (name : Text) (number target : Nat)
  deriving Repr

/-- The line of a node. -/
def Node.line : Node → Nat
  | .scalar line _ _ => line
  | .sequence line _ _ => line
  | .mapping line _ _ => line
  | .alias line _ _ _ => line

/-- The first document of a text. -/
structure Document where
  /-- The root, if there is a document. -/
  root : Option Node
  /-- The anchored nodes by their number. -/
  anchored : List (Nat × Node)
  /-- No node lies deeper than this, counting the nodes that aliases stand
      for, unless an alias stands inside itself. -/
  depth : Nat
  deriving Repr

/-! ### Tags -/

/-- The tag of a sequence. -/
def sequenceTag : Text := text "!!seq"

/-- The tag of a mapping. -/
def mappingTag : Text := text "!!map"

/-- The tag of the key under which mappings are merged. -/
def mergeTag : Text := text "!!merge"

/-- The tag of bytes in base 64. -/
def binaryTag : Text := text "!!binary"

/-- What the handle `!!` stands for. -/
def standardTags : Text := text "tag:yaml.org,2002:"

/-- A tag with the standard handle instead of what it stands for. -/
def shortTag (tag : Text) : Text :=
  if standardTags.isPrefixOf tag then text "!!" ++ tag.drop standardTags.length else tag

/-- The tag of a node: the given one, unless it is absent or says nothing. -/
def tagOr (default_ tag : Text) : Text :=
  if tag.isEmpty ∨ tag = text "!" then default_ else shortTag tag

/-- The tag of a scalar without one. -/
def scalarTag (quoted : Bool) (value : Text) : Text :=
  if quoted then Kind.str.tag
  else if value = text "<<" then mergeTag
  else (kind value).tag

/-! ### The state of the builder -/

/-- The state of the builder. -/
structure Builder where
  rest : List Placed
  /-- What the handles of tags stand for. -/
  handles : List (Text × Text) := []
  /-- The numbers of the nodes that were anchored last under each name. -/
  anchors : List (Text × Nat) := []
  anchored : List (Nat × Node) := []
  /-- The number of the next anchored node. -/
  nextAnchor : Nat := 0
  /-- The number of the next alias. -/
  nextAlias : Nat := 0

/-- A step of the builder. -/
abbrev Build (α : Type) := StateT Builder (Except Text) α

/-- Refuses a text. -/
def fail {α : Type} (why : String) : Build α := throw (text why)

/-- The next token. It is seen only if the two behind it are well formed. -/
def peek : Build Placed := do
  let s ← get
  for p in s.rest.take 3 do
    if let .malformed why := p.token then throw why
  return s.rest.headD ⟨.streamEnd, 0⟩

/-- Passes the next token. -/
def advance : Build Unit := modify fun s => { s with rest := s.rest.drop 1 }

/-- An empty scalar on a line. -/
def emptyNode (line : Nat) : Node := .scalar (line + 1) Kind.null.tag []

/-- The tag that a token stands for. -/
def expandTag (handle suffix : Text) : Build Text := do
  if handle.isEmpty then return suffix
  match List.lookup handle (← get).handles with
  | some expansion => return expansion ++ suffix
  | none => fail "found undefined tag handle"

/-- The anchor and the tag before a node. -/
structure Properties where
  anchor : Option Text := none
  tag : Text := []
  /-- The line of the first of them. -/
  line : Option Nat := none

/-- Reads the anchor and the tag before a node, in any order. -/
def readProperties : Build Properties := do
  let first ← peek
  match first.token with
  | .anchor name =>
    advance
    match (← peek).token with
    | .tag handle suffix =>
      advance
      let _ ← peek
      return { anchor := name, tag := ← expandTag handle suffix, line := first.line }
    | _ => return { anchor := name, line := first.line }
  | .tag handle suffix =>
    advance
    match (← peek).token with
    | .anchor name =>
      advance
      let _ ← peek
      return { anchor := name, tag := ← expandTag handle suffix, line := first.line }
    | _ => return { tag := ← expandTag handle suffix, line := first.line }
  | _ => return {}

/-- Gives a node that is about to be read its anchor. -/
def openAnchor (name : Option Text) : Build (Option Nat) := do
  match name with
  | none => return none
  | some name =>
    let s ← get
    set { s with anchors := (name, s.nextAnchor) :: s.anchors, nextAnchor := s.nextAnchor + 1 }
    return some s.nextAnchor

/-- Keeps a node that was anchored. -/
def closeAnchor (number : Option Nat) (node : Node) : Build Node := do
  if let some number := number then
    modify fun s => { s with anchored := (number, node) :: s.anchored }
  return node

/-- Reads an alias. -/
def readAlias (line : Nat) (name : Text) : Build Node := do
  advance
  let s ← get
  match List.lookup name s.anchors with
  | none => fail "unknown anchor referenced"
  | some target =>
    set { s with nextAlias := s.nextAlias + 1 }
    return .alias (line + 1) name s.nextAlias target

/-! ### Collections -/

mutual

/-- Reads a node. Block collections are read on demand, and so are sequences
    that are not indented. -/
def readNode (block indentless : Bool) : (fuel : Nat) → Build Node
  | 0 => fail "did not find expected node content"
  | fuel + 1 => do
    let first ← peek
    if let .alias name := first.token then return ← readAlias first.line name
    let properties ← readProperties
    let p ← peek
    let line := properties.line.getD p.line + 1
    let number ← openAnchor properties.anchor
    let tag := properties.tag
    match p.token with
    | .scalar value quoted =>
      advance
      closeAnchor number (.scalar line (tagOr (scalarTag quoted value) tag) value)
    | .flowSequence =>
      advance
      let items ← readFlowItems fuel true
      closeAnchor number (.sequence line (tagOr sequenceTag tag) items)
    | .flowMapping =>
      advance
      let entries ← readFlowEntries fuel true
      closeAnchor number (.mapping line (tagOr mappingTag tag) entries)
    | token =>
      if indentless ∧ token = .blockEntry then
        let items ← readIndentlessItems fuel
        closeAnchor number (.sequence line (tagOr sequenceTag tag) items)
      else if block ∧ token = .blockSequence then
        advance
        let items ← readBlockItems fuel
        closeAnchor number (.sequence line (tagOr sequenceTag tag) items)
      else if block ∧ token = .blockMapping then
        advance
        let entries ← readBlockEntries fuel
        closeAnchor number (.mapping line (tagOr mappingTag tag) entries)
      else if properties.anchor.isSome ∨ !tag.isEmpty then
        closeAnchor number (.scalar line (tagOr (scalarTag false []) tag) [])
      else fail "did not find expected node content"

/-- Reads the items of a block sequence. -/
def readBlockItems : (fuel : Nat) → Build (List Node)
  | 0 => fail "did not find expected '-' indicator"
  | fuel + 1 => do
    match (← peek).token with
    | .blockEntry =>
      let dash ← peek
      advance
      let next := (← peek).token
      let item ← if next = .blockEntry ∨ next = .blockEnd then pure (emptyNode dash.line)
        else readNode true false fuel
      return item :: (← readBlockItems fuel)
    | .blockEnd =>
      advance
      return []
    | _ => fail "did not find expected '-' indicator"

/-- Reads the items of a sequence that is not indented. -/
def readIndentlessItems : (fuel : Nat) → Build (List Node)
  | 0 => fail "did not find expected '-' indicator"
  | fuel + 1 => do
    match (← peek).token with
    | .blockEntry =>
      let dash ← peek
      advance
      let next := (← peek).token
      let item ← if next = .blockEntry ∨ next = .key ∨ next = .value ∨ next = .blockEnd
        then pure (emptyNode dash.line)
        else readNode true false fuel
      return item :: (← readIndentlessItems fuel)
    | _ => return []

/-- Reads the entries of a block mapping. -/
def readBlockEntries : (fuel : Nat) → Build (List (Node × Node))
  | 0 => fail "did not find expected key"
  | fuel + 1 => do
    match (← peek).token with
    | .key =>
      let mark ← peek
      advance
      let key ← readBlockPart fuel mark.line
      let mark ← peek
      let value ← if mark.token = .value then do
          advance
          readBlockPart fuel mark.line
        else pure (emptyNode mark.line)
      return (key, value) :: (← readBlockEntries fuel)
    | .blockEnd =>
      advance
      return []
    | _ => fail "did not find expected key"

/-- Reads the key or the value of an entry behind its indicator. -/
def readBlockPart (fuel : Nat) (line : Nat) : Build Node := do
  match fuel with
  | 0 => fail "did not find expected key"
  | fuel + 1 =>
    let next := (← peek).token
    if next = .key ∨ next = .value ∨ next = .blockEnd then return emptyNode line
    else readNode true true fuel

/-- Reads the items of a flow sequence. An item may be a mapping with one
    entry. -/
def readFlowItems (fuel : Nat) (first : Bool) : Build (List Node) := do
  match fuel with
  | 0 => fail "did not find expected ',' or ']'"
  | fuel + 1 =>
    if !first ∧ (← peek).token ≠ .flowSequenceEnd then
      if (← peek).token ≠ .flowEntry then fail "did not find expected ',' or ']'"
      advance
    let p ← peek
    match p.token with
    | .flowSequenceEnd =>
      advance
      return []
    | .key =>
      advance
      let entry ← readFlowPair fuel
      return .mapping (p.line + 1) mappingTag [entry] :: (← readFlowItems fuel false)
    | _ =>
      let item ← readNode false false fuel
      return item :: (← readFlowItems fuel false)

/-- Reads the only entry of a mapping in a flow sequence. An empty key takes the
    token behind it along. -/
def readFlowPair (fuel : Nat) : Build (Node × Node) := do
  match fuel with
  | 0 => fail "did not find expected ',' or ']'"
  | fuel + 1 =>
    let p ← peek
    let key ← if p.token = .value ∨ p.token = .flowEntry ∨ p.token = .flowSequenceEnd then do
        advance
        pure (emptyNode p.line)
      else readNode false false fuel
    let mark ← peek
    if mark.token = .value then
      advance
      let next ← peek
      if next.token = .flowEntry ∨ next.token = .flowSequenceEnd then
        return (key, emptyNode mark.line)
      else return (key, ← readNode false false fuel)
    else return (key, emptyNode mark.line)

/-- Reads the entries of a flow mapping. -/
def readFlowEntries (fuel : Nat) (first : Bool) : Build (List (Node × Node)) := do
  match fuel with
  | 0 => fail "did not find expected ',' or '\x7d'"
  | fuel + 1 =>
    if !first ∧ (← peek).token ≠ .flowMappingEnd then
      if (← peek).token ≠ .flowEntry then fail "did not find expected ',' or '\x7d'"
      advance
    let p ← peek
    match p.token with
    | .flowMappingEnd =>
      advance
      return []
    | .key =>
      advance
      let next ← peek
      let key ← if next.token = .value ∨ next.token = .flowEntry ∨ next.token = .flowMappingEnd
        then pure (emptyNode next.line)
        else readNode false false fuel
      let mark ← peek
      let value ← if mark.token = .value then do
          advance
          let next ← peek
          if next.token = .flowEntry ∨ next.token = .flowMappingEnd then pure (emptyNode next.line)
          else readNode false false fuel
        else pure (emptyNode mark.line)
      return (key, value) :: (← readFlowEntries fuel false)
    | _ =>
      let key ← readNode false false fuel
      let next ← peek
      return (key, emptyNode next.line) :: (← readFlowEntries fuel false)

end

/-! ### Documents -/

/-- The handles that need no directive. -/
def standardHandles : List (Text × Text) := [(text "!", text "!"), (text "!!", standardTags)]

/-- Reads the directives before a document. -/
def readDirectives : (fuel : Nat) → (versions : Nat) → Build Unit
  | 0, _ => fail "did not find expected <document start>"
  | fuel + 1, versions => do
    match (← peek).token with
    | .version major minor =>
      if versions ≠ 0 then fail "found duplicate %YAML directive"
      if major ≠ 1 ∨ minor ≠ 1 then fail "found incompatible YAML document"
      advance
      readDirectives fuel 1
    | .handle name expansion =>
      let s ← get
      if s.handles.any (·.1 == name) then fail "found duplicate %TAG directive"
      set { s with handles := (name, expansion) :: s.handles }
      advance
      readDirectives fuel versions
    | _ => modify fun s => { s with handles := s.handles ++ standardHandles }

/-- Reads the first document, if there is one. -/
def readDocument (fuel : Nat) : Build (Option Node) := do
  let starts := (← peek).token
  if starts = .streamEnd then return none
  readDirectives fuel 0
  let explicit := match starts with
    | .version _ _ => true
    | .handle _ _ => true
    | .documentStart => true
    | _ => false
  if explicit then
    if (← peek).token ≠ .documentStart then fail "did not find expected <document start>"
    advance
  let p ← peek
  let root ← match explicit, p.token with
    | true, .version _ _ => pure (emptyNode p.line)
    | true, .handle _ _ => pure (emptyNode p.line)
    | true, .documentStart => pure (emptyNode p.line)
    | true, .documentEnd => pure (emptyNode p.line)
    | true, .streamEnd => pure (emptyNode p.line)
    | _, _ => readNode true false fuel
  let _ ← peek
  return some root

/-- The first document of a text, or why the text is malformed. -/
def Document.parse (t : Text) : Except Text Document := do
  match source? t with
  | none => throw (text "control characters are not allowed")
  | some cs =>
    let ps := tokens cs
    let (root, s) ← (readDocument (4 * ps.length + 4)).run { rest := ps }
    return { root, anchored := s.anchored, depth := (ps.length + 1) * (s.nextAlias + 1) }

end ImportFinder.Yaml
