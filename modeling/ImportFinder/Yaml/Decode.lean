import ImportFinder.Text.Base64
import ImportFinder.Text.Quoted
import ImportFinder.Yaml.Node

/-!
# Values from YAML nodes

How nodes are read as texts, lists of texts and tables of lists. A node of the
wrong shape is a `Problem`: it is noted, its value is left out, and reading goes
on, so that a text with several mistakes has all of them reported. A tag that
does not fit its scalar, and an alias inside itself, end the reading at once.

Null leaves a text as it is, empties a list or a table, and is no item of a list.
A mapping takes over the entries of the mappings under its merge key, except for
the keys that it has itself. An alias is read wherever it stands, and how often that is
has no limit.
-/

namespace ImportFinder.Yaml

/-- What is wrong with a node. -/
inductive Problem
  /-- The value is of another type than the wanted one. -/
  | mismatch (line : Nat) (tag : Text) (value : Option Text) (wanted : Text)
  /-- A key stands in a mapping twice. -/
  | duplicateKey (line : Nat) (key : Text) (first : Nat)
  /-- A field is given twice under different spellings. -/
  | fieldAgain (line : Nat) (field owner : Text)
  deriving DecidableEq, Repr

/-- A value as it is shown in a message: long ones are cut. -/
def shownValue (value : Text) : Text :=
  if 10 < value.length then value.take 7 ++ text "..." else value

/-- The text of a problem. -/
def Problem.message : Problem → Text
  | .mismatch line tag value wanted =>
    text "line " ++ Text.ofNat line ++ text ": cannot unmarshal " ++ tag ++
      (match value with
        | some v => text " `" ++ shownValue v ++ text "`"
        | none => []) ++
      text " into " ++ wanted
  | .duplicateKey line key first =>
    text "line " ++ Text.ofNat line ++ text ": mapping key " ++ Text.quoted key ++
      text " already defined at line " ++ Text.ofNat first
  | .fieldAgain line field owner =>
    text "line " ++ Text.ofNat line ++ text ": field " ++ field ++ text " already set in type " ++
      owner

/-- A step of reading: it notes problems, or ends the reading at once. -/
abbrev Decode (α : Type) := StateT (List Problem) (Except Text) α

/-- Notes a problem. -/
def note (p : Problem) : Decode Unit := modify (· ++ [p])

/-- The document in which nodes are read, and the aliases that are being read. -/
structure Scope where
  document : Document
  active : List Nat := []

/-- The node that a node stands for, and the scope in which it is read. -/
def Scope.follow (s : Scope) (n : Node) : Decode (Node × Scope) := do
  match n with
  | .alias _ name number target =>
    if s.active.contains number then
      throw (text "anchor '" ++ name ++ text "' value contains itself")
    match List.lookup target s.document.anchored with
    | some node => return (node, { s with active := number :: s.active })
    | none => throw (text "unknown anchor '" ++ name ++ text "' referenced")
  | n => return (n, s)

/-! ### Scalars -/

/-- Whether a scalar with a tag of a known kind is of that kind. Every integer is
    a float. -/
def fitsTag (tag value : Text) : Bool :=
  if tag = Kind.null.tag then kind value == .null
  else if tag = Kind.bool.tag then kind value == .bool
  else if tag = Kind.int.tag then kindWith false value == .int
  else if tag = Kind.float.tag then
    kindWith false value == .float || kindWith false value == .int
  else if tag = Kind.timestamp.tag then kind value == .timestamp
  else true

/-- The text of a scalar, none if it is null. -/
def scalarValue (tag value : Text) : Decode (Option Text) := do
  if !fitsTag tag value then
    throw (text "cannot decode " ++ (kind value).tag ++ text " `" ++ value ++ text "` as a " ++ tag)
  if tag = Kind.null.tag then return none
  if tag = binaryTag then
    match Base64.decode value with
    | some bytes => return some bytes
    | none => throw (text "!!binary value contains invalid base64 data")
  return some value

/-! ### Mappings -/

/-- The kind and the text by which keys are compared. -/
def Node.identity : Node → Nat × Text
  | .scalar _ _ value => (0, value)
  | .sequence _ _ _ => (1, [])
  | .mapping _ _ _ => (2, [])
  | .alias _ name _ _ => (3, name)

/-- The text of a key as it is shown in a message. -/
def Node.keyText (n : Node) : Text := n.identity.2

/-- The keys that stand in a mapping twice, each pair once. -/
def duplicateKeys : List Node → List Problem
  | [] => []
  | k :: more =>
    (more.filter (·.identity == k.identity)).map
      (fun other => .duplicateKey other.line other.keyText k.line) ++ duplicateKeys more

/-- Whether a key is the merge key. -/
def Node.isMerge : Node → Bool
  | .scalar _ tag value => value == text "<<" && tag == mergeTag
  | _ => false

/-- A sequence or mapping where something else is wanted. -/
def noteMismatch (line : Nat) (usual tag wanted : Text) : Decode Unit :=
  note (.mismatch line tag (if tag = usual then none else some []) wanted)

/-- A mapping where something else is wanted. Its keys are looked at first. -/
def noteMapping (line : Nat) (tag : Text) (entries : List (Node × Node)) (wanted : Text) :
    Decode Unit := do
  match duplicateKeys (entries.map (·.1)) with
  | [] => noteMismatch line mappingTag tag wanted
  | problems => problems.forM note

/-! ### Texts and lists -/

/-- The name of texts in messages. -/
def textType : Text := text "string"

/-- The name of lists of texts in messages. -/
def listType : Text := text "[]string"

/-- The name of tables of lists in messages. -/
def tableType : Text := text "map[string][]string"

/-- A node read as a text; nothing if it is null or of the wrong shape. -/
def Scope.text? (s : Scope) (n : Node) : Decode (Option Text) := do
  match (← s.follow n).1 with
  | .scalar _ tag value => scalarValue tag value
  | .sequence line tag _ =>
    noteMismatch line sequenceTag tag textType
    return none
  | .mapping line tag entries =>
    noteMapping line tag entries textType
    return none
  | .alias _ _ _ _ => return none

/-- A scalar where a list or a table is wanted: null stands for no value at all,
    anything else is a problem. -/
def noteScalar (line : Nat) (tag value wanted : Text) : Decode Bool := do
  match ← scalarValue tag value with
  | none => return true
  | some _ =>
    note (.mismatch line tag (some value) wanted)
    return false

/-- A node read as a list of texts: nothing if it is of the wrong shape, no list
    if it is null. -/
def Scope.list? (s : Scope) (n : Node) : Decode (Option (Option (List Text))) := do
  let (n, s) ← s.follow n
  match n with
  | .scalar line tag value =>
    return if ← noteScalar line tag value listType then some none else none
  | .sequence _ _ items => return some (some ((← items.mapM s.text?).filterMap id))
  | .mapping line tag entries =>
    noteMapping line tag entries listType
    return none
  | .alias _ _ _ _ => return none

/-! ### Reading the entries of a mapping -/

/-- How the entries of a mapping become part of a value. -/
structure Receiver (σ : Type) where
  /-- The name of the value in messages. -/
  owner : Text
  /-- Whether an entry may be given only once. -/
  once : Text → Bool
  /-- Takes over an entry. -/
  accept : Scope → σ → Text → Node → Decode σ

/-- The keys that are texts, which merged mappings do not replace. -/
def Scope.textKeys (s : Scope) (keys : List Node) : Decode (List Text) := do
  let names ← keys.mapM fun k => do
    match (← s.follow k).1 with
    | .scalar _ tag value =>
      let fixed := [Kind.null.tag, Kind.bool.tag, Kind.int.tag, Kind.float.tag, Kind.timestamp.tag]
      if fixed.contains tag then return none else scalarValue tag value
    | _ => throw (text "invalid map key")
  return names.filterMap id

/-- Reads entries in order, except those under the merge key. `taken` are the
    keys that must not be replaced, if the mapping is merged into another one,
    and `seen` those that the mapping has had so far. Gives the last node under
    the merge key as well. -/
def Receiver.entries {σ : Type} (r : Receiver σ) (s : Scope) :
    List (Node × Node) → σ → Option (List Text) → List Text → Option Node →
    Decode (σ × Option (List Text) × Option Node)
  | [], state, taken, _, merge => return (state, taken, merge)
  | (key, value) :: more, state, taken, seen, merge => do
    if key.isMerge then r.entries s more state taken seen (some value)
    else match ← s.text? key with
      | none => r.entries s more state taken seen merge
      | some name =>
        if taken.any (·.contains name) then r.entries s more state taken seen merge
        else
          let taken := taken.map (name :: ·)
          if r.once name && seen.contains name then
            note (.fieldAgain key.line name r.owner)
            r.entries s more state taken seen merge
          else
            let state ← r.accept s state name value
            r.entries s more state taken (name :: seen) merge

/-- The mappings under the merge key. -/
def mergeSources : Node → List Node
  | .sequence _ _ items => items
  | n => [n]

/-- Whether a node under the merge key is a mapping. -/
def Scope.isMapping (s : Scope) (n : Node) : Bool :=
  let node := match n with
    | .alias _ _ _ target => List.lookup target s.document.anchored
    | n => some n
  match node with
  | some (.mapping _ _ _) => true
  | _ => false

/-- Reads a mapping into a value. -/
def Receiver.mapping {σ : Type} (r : Receiver σ) :
    (fuel : Nat) → Scope → List (Node × Node) → σ → Option (List Text) →
    Decode (σ × Option (List Text))
  | 0, _, _, _, _ => throw (text "document contains excessive aliasing")
  | fuel + 1, s, entries, state, taken => do
    match duplicateKeys (entries.map (·.1)) with
    | [] =>
      let (state, taken, merge) ← r.entries s entries state taken [] none
      match merge with
      | none => return (state, taken)
      | some merge =>
        let own ← match taken with
          | some names => pure names
          | none => s.textKeys (entries.map (·.1))
        let (state, names) ← (mergeSources merge).foldlM (fun (state, names) source => do
          if !s.isMapping source then
            throw (text "map merge requires map or sequence of maps as the value")
          match ← s.follow source with
          | (.mapping _ _ entries, s) =>
            let (state, names') ← r.mapping fuel s entries state (some names)
            return (state, names'.getD names)
          | _ => return (state, names)) (state, own)
        return (state, taken.map fun _ => names)
    | problems =>
      problems.forM note
      return (state, taken)

/-- A node read into a value: a mapping gives its entries, null gives `onNull`
    and anything else is a problem. -/
def Receiver.read {σ : Type} (r : Receiver σ) (s : Scope) (n : Node) (state onNull : σ) :
    Decode σ := do
  let (n, s) ← s.follow n
  match n with
  | .scalar line tag value =>
    return if ← noteScalar line tag value r.owner then onNull else state
  | .sequence line tag _ =>
    noteMismatch line sequenceTag tag r.owner
    return state
  | .mapping _ _ entries => return (← r.mapping s.document.depth s entries state none).1
  | .alias _ _ _ _ => return state

/-! ### Tables -/

/-- A table of lists, where a list may be missing. -/
abbrev ListTable := List (Text × Option (List Text))

/-- The table with a list put under a key. -/
def ListTable.put (t : ListTable) (key : Text) (value : Option (List Text)) : ListTable :=
  match t with
  | [] => [(key, value)]
  | (k, v) :: more => if k = key then (k, value) :: more else (k, v) :: ListTable.put more key value

/-- The receiver of tables. -/
def tableReceiver : Receiver (Option ListTable) where
  owner := tableType
  once := fun _ => false
  accept s table name n := do
    match ← s.list? n with
    | some value => return some (ListTable.put (table.getD []) name value)
    | none => return some (table.getD [])

/-- A node read as a table of lists, put into the one that is there. -/
def Scope.table (s : Scope) (n : Node) (current : Option ListTable) :
    Decode (Option ListTable) := do
  match (← s.follow n).1 with
  | .mapping _ _ entries =>
    if (duplicateKeys (entries.map (·.1))).isEmpty then
      tableReceiver.read s n (some (current.getD [])) none
    else tableReceiver.read s n current none
  | _ => tableReceiver.read s n current none

/-! ### Documents -/

/-- A document read into a value, or the message that tells why not. -/
def Receiver.decode {σ : Type} (r : Receiver σ) (t : Text) (state : σ) : Except Text σ := do
  let prepend (why : Text) : Text := text "yaml: " ++ why
  match Document.parse t with
  | .error why => throw (prepend why)
  | .ok document =>
    match document.root with
    | none => return state
    | some root =>
      match (r.read { document } root state state).run [] with
      | .error why => throw (prepend why)
      | .ok (value, []) => return value
      | .ok (_, problems) =>
        throw (prepend (text "unmarshal errors:" ++
          problems.flatMap fun p => text "\n  " ++ p.message))

end ImportFinder.Yaml
