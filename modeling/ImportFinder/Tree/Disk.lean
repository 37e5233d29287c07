import ImportFinder.Path
import ImportFinder.Tree.Basic

/-!
# Trees on a disk

The directories, files and symbolic links of a disk, with a working directory
from which relative paths are taken. A path is looked up component by component:
links on the way are followed, and `..` leads to the parent of the directory that
has been reached, which need not be the one written before it.

Directories list their entries sorted by name, bytewise, and do not follow links;
`stat` and reading do. The failures are those of the operating system, with the
operation, the path as it was given, and the fault.
-/

namespace ImportFinder

/-- What stands at a place on the disk. -/
inductive DiskNode
  | file (content : Text)
  | directory
  | link (target : Text)
  deriving DecidableEq, Repr

/-- A place on the disk: the components of its absolute path. -/
abbrev Place := List Text

/-- A disk with a working directory. -/
structure Disk where
  work : Place
  nodes : List (Place × DiskNode)
  deriving Repr

namespace Disk

/-- What stands at a place. The root is always a directory. -/
def get? (d : Disk) (place : Place) : Option DiskNode :=
  if place.isEmpty then some .directory else List.lookup place d.nodes

/-- The components of a path as they are written. -/
def steps (path : Text) : List Text := (Text.split Text.slash path).filter (!·.isEmpty)

/-- Whether a path ends in a slash and so has to name a directory. -/
def wantsDirectory (path : Text) : Bool := path.getLast? == some Text.slash

/-- How many links may be followed on the way. -/
def mostLinks : Nat := 40

/-- The longest component of a path, in bytes. -/
def longestComponent : Nat := 255

/-- The longest path, in bytes. -/
def longestPath : Nat := 4095

/-- Follows components from a place. `links` is the number of links that may
    still be followed. -/
def follow (d : Disk) (links : Nat) (place : Place) (path : List Text) :
    Except Fault Place :=
  match path with
  | [] => .ok place
  | component :: rest =>
    if d.get? place ≠ some .directory then .error .notDirectory
    else if component = Path.here then follow d links place rest
    else if component = Path.up then follow d links place.dropLast rest
    else if longestComponent < component.length then .error .nameTooLong
    else match d.get? (place ++ [component]) with
      | none => .error .notFound
      | some (.link target) =>
        match links with
        | 0 => .error .tooManyLinks
        | links + 1 =>
          if target.isEmpty then .error .notFound
          else
            let start := if Path.isAbsolute target then [] else place
            let end_ := if wantsDirectory target && rest.isEmpty then [Path.here] else []
            follow d links start (steps target ++ end_ ++ rest)
      | some _ => follow d links (place ++ [component]) rest
termination_by (links, path.length)

/-- The place that a path leads to. -/
def locate (d : Disk) (path : Text) : Except Fault Place :=
  if path.contains 0 then .error .invalidName
  else if path.isEmpty then .error .notFound
  else if longestPath < path.length then .error .nameTooLong
  else
    let start := if Path.isAbsolute path then [] else d.work
    let end_ := if wantsDirectory path then [Path.here] else []
    d.follow mostLinks start (steps path ++ end_)

/-- The entry that stands for a node. -/
def entry (name : Text) : DiskNode → Entry
  | .file content => { name, kind := .file, size := content.length }
  | .directory => { name, kind := .directory }
  | .link _ => { name, kind := .link }

/-- What stands at a path, behind all links. -/
def stat (d : Disk) (path : Text) : Except Failure Entry :=
  match d.locate path with
  | .error fault => .error (.system (text "stat") path fault)
  | .ok place =>
    match d.get? place with
    | some node => .ok (entry (Path.base path) node)
    | none => .error (.system (text "stat") path .notFound)

/-- The entries directly below a place, sorted by name. -/
def entriesAt (d : Disk) (place : Place) : List Entry :=
  (d.nodes.filterMap fun (p, node) =>
    match p.getLast? with
    | some name => if p.dropLast = place then some (entry name node) else none
    | none => none).mergeSort fun a b => Text.le a.name b.name

/-- What a directory lists. -/
def list (d : Disk) (path : Text) : Except Failure (List Entry) :=
  let refuse (fault : Fault) : Except Failure (List Entry) :=
    .error (.context (text "failed to read directory: ") (.system (text "open") path fault) [])
  match d.locate path with
  | .error fault => refuse fault
  | .ok place =>
    match d.get? place with
    | some .directory => .ok (d.entriesAt place)
    | some _ => refuse .notDirectory
    | none => refuse .notFound

/-- What a file holds. -/
def read (d : Disk) (path : Text) : Except Failure Text :=
  match d.locate path with
  | .error fault => .error (.system (text "open") path fault)
  | .ok place =>
    match d.get? place with
    | some (.file content) => .ok content
    | some _ => .error (.system (text "read") path .isDirectory)
    | none => .error (.system (text "open") path .notFound)

/-- The tree as searches see it. -/
def tree (d : Disk) : Tree := ⟨d.stat, d.list, d.read⟩

/-! ### Making a disk -/

/-- The disk with a node put at a place, in place of what is there. -/
def put (d : Disk) (place : Place) (node : DiskNode) : Disk :=
  { d with nodes := (place, node) :: d.nodes.filter (·.1 ≠ place) }

/-- Makes the directories that lead from a place along components, and gives the
    place that is reached. Links on the way are followed. -/
def makeDirectories (d : Disk) (place : Place) : List Text → Disk × Place
  | [] => (d, place)
  | component :: rest =>
    match d.get? (place ++ [component]) with
    | none => makeDirectories (d.put (place ++ [component]) .directory) (place ++ [component]) rest
    | some (.link _) =>
      match d.follow mostLinks place [component] with
      | .ok reached => makeDirectories d reached rest
      | .error _ => makeDirectories d (place ++ [component]) rest
    | some _ => makeDirectories d (place ++ [component]) rest

/-- A disk that holds nothing but its working directory. -/
def empty (work : Text) : Disk :=
  let place := Path.components work
  ((Disk.mk place []).makeDirectories [] place).1

/-- Puts a node at a path below the working directory, with its parents. -/
def add (d : Disk) (path : Text) (node : DiskNode) : Disk :=
  let components := Path.components path
  match components.getLast? with
  | none => d
  | some last =>
    let start := if Path.isAbsolute path then [] else d.work
    let (d, place) := d.makeDirectories start components.dropLast
    d.put (place ++ [last]) node

/-- Makes a directory at a path below the working directory, with its
    parents. -/
def addDirectory (d : Disk) (path : Text) : Disk :=
  let start := if Path.isAbsolute path then [] else d.work
  (d.makeDirectories start (Path.components path)).1

end Disk

end ImportFinder
