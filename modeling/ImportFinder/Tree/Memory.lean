import ImportFinder.Path
import ImportFinder.Tree.Basic

/-!
# Trees in memory

A tree built by adding files, directories and links to an empty root. Nodes are
kept in one table by their cleaned path; besides, every directory keeps the
names of its entries in the order in which they were added, and lists them in
that order. Parents are made when they are missing.

Adding a file where something already stands replaces it in place, children and
all. Adding a link puts it there anew, behind the other entries. Failures may be
planted on paths, to be met by everyone who lists or reads there.
-/

namespace ImportFinder

/-! ### Tables -/

/-- A table from texts to values. -/
abbrev Table (α : Type) := List (Text × α)

namespace Table

variable {α : Type}

/-- The value at a key. -/
def get? (t : Table α) (key : Text) : Option α := List.lookup key t

/-- The table with a value put at a key, in place of the one that is there. -/
def put (t : Table α) (key : Text) (value : α) : Table α :=
  match t with
  | [] => [(key, value)]
  | (k, v) :: more => if k = key then (k, value) :: more else (k, v) :: put more key value

end Table

/-! ### Nodes -/

/-- A file, directory or link in memory. -/
structure Node where
  entry : Entry
  content : Text := []
  /-- The names of the entries in the order in which they were added. -/
  children : List Text := []
  deriving DecidableEq, Repr

/-- An empty directory at a path. -/
def Node.directory (path : Text) : Node :=
  { entry := { name := Path.base path, kind := .directory } }

/-- A file at a path. -/
def Node.file (path content : Text) : Node :=
  { entry := { name := Path.base path, kind := .file, size := content.length }, content }

/-- A link at a path. -/
def Node.link (path : Text) : Node := { entry := { name := Path.base path, kind := .link } }

/-! ### The tree -/

/-- A tree in memory. -/
structure Memory where
  root : Text
  nodes : Table Node
  failures : Table Failure := []
  deriving Repr

namespace Memory

/-- The tree that holds nothing but its root. -/
def empty (root : Text) : Memory :=
  let root := Path.clean root
  { root, nodes := [(root, Node.directory root)] }

/-- The cleaned path that a path stands for: one that does not start with the
    root is taken from there, unless it is absolute. -/
def resolve (m : Memory) (p : Text) : Text :=
  if p.isEmpty ∨ p = Path.here then m.root
  else if p = m.root ∨ (m.root ++ [Text.slash]).isPrefixOf p then Path.clean p
  else if Path.isAbsolute p then Path.clean p
  else Path.clean (Path.join m.root p)

/-- The tree with a node put at a path. -/
def put (m : Memory) (path : Text) (node : Node) : Memory :=
  { m with nodes := m.nodes.put path node }

/-- Makes a path an entry of its parent. -/
def link (m : Memory) (path : Text) : Memory :=
  let parent := Path.parent path
  if parent = path then m
  else match m.nodes.get? parent with
    | some dir => m.put parent { dir with children := dir.children ++ [Path.base path] }
    | none => m

/-- The ancestors of a path that are missing, nearest first. -/
def missing (m : Memory) : Nat → Text → List Text
  | 0, _ => []
  | steps + 1, path =>
    let parent := Path.parent path
    if parent = path ∨ (m.nodes.get? parent).isSome then []
    else parent :: missing m steps parent

/-- Makes the missing ancestors of a path, the outermost first. A path has no
    more ancestors than bytes. -/
def makeParents (m : Memory) (path : Text) : Memory :=
  (m.missing (path.length + 1) path).foldr
    (fun dir m => (m.put dir (Node.directory dir)).link dir) m

/-- Puts a node where none has been, with its parents. -/
def insert (m : Memory) (path : Text) (node : Node) : Memory :=
  ((m.makeParents path).put path node).link path

/-- Adds a file. What stands there is replaced in place. -/
def addFile (m : Memory) (p content : Text) : Memory :=
  let path := m.resolve p
  let made := Node.file path content
  match m.nodes.get? path with
  | some node => m.put path { node with entry := made.entry, content := made.content }
  | none => m.insert path made

/-- Adds a directory, unless something stands there. -/
def addDir (m : Memory) (p : Text) : Memory :=
  let path := m.resolve p
  match m.nodes.get? path with
  | some _ => m
  | none => m.insert path (Node.directory path)

/-- Adds a link, in place of whatever stands there. -/
def addLink (m : Memory) (p : Text) : Memory :=
  let path := m.resolve p
  m.insert path (Node.link path)

/-- Plants a failure on a path. -/
def failOn (m : Memory) (p : Text) (f : Failure) : Memory :=
  { m with failures := m.failures.put (m.resolve p) f }

/-- What stands at a path. -/
def stat (m : Memory) (p : Text) : Except Failure Entry :=
  match m.nodes.get? (m.resolve p) with
  | some node => .ok node.entry
  | none => .error (.context (text "path not found: " ++ p ++ text ": ") (.cause .notExist) [])

/-- The entries that a directory's names stand for, unless one of them stands
    for nothing. -/
def entries? (m : Memory) (path : Text) (node : Node) : Option (List Entry) :=
  node.children.mapM fun name => (m.nodes.get? (Path.join path name)).map (·.entry)

/-- What a directory lists. -/
def list (m : Memory) (p : Text) : Except Failure (List Entry) :=
  let path := m.resolve p
  match m.failures.get? path with
  | some f => .error (.context (text "failed to read directory: ") f [])
  | none =>
    match m.nodes.get? path with
    | none =>
      .error (.context (text "directory not found: " ++ p ++ text ": ") (.cause .notExist) [])
    | some node =>
      if node.entry.kind = .directory then
        match m.entries? path node with
        | some entries => .ok entries
        | none => .error (.plain (text "entry without a node in " ++ p))
      else .error (.plain (text "path is not a directory: " ++ p))

/-- What a file holds. -/
def read (m : Memory) (p : Text) : Except Failure Text :=
  let path := m.resolve p
  match m.failures.get? path with
  | some f => .error f
  | none =>
    match m.nodes.get? path with
    | none => .error (.context (text "file not found: " ++ p ++ text ": ") (.cause .notExist) [])
    | some node =>
      if node.entry.kind = .directory then
        .error (.plain (text "path is a directory, not a file: " ++ p))
      else .ok node.content

/-- The tree as searches see it. -/
def tree (m : Memory) : Tree := ⟨m.stat, m.list, m.read⟩

end Memory

end ImportFinder
