import ImportFinder.Ignore
import ImportFinder.Path
import ImportFinder.Record
import ImportFinder.Text.Lower

/-!
# Walking a tree

A walk passes a directory tree depth first, in the order in which directories
list their entries. It keeps a stack of directories that are not yet finished;
each of them holds the entries that are still to be passed. Ignored names are
left out, with everything below them, and links are never followed.

What happens is a list of events (`Walk.Event`), from which everything else is
read off: the files that were reached, the directories that were listed or could
not be, and the messages that are logged.

A walk fails if its root is missing or no directory, and for no other reason
(`Walk.walk`). A tree may be infinite, so a walk is given the number of steps that
it may take. Each step passes one entry or leaves one directory.
-/

namespace ImportFinder.Walk

/-- What happens on a walk. -/
inductive Event
  /-- A directory was listed. -/
  | listed (dir : Text)
  /-- A directory could not be listed. -/
  | unreadable (dir : Text) (why : Failure)
  /-- An entry was left out. -/
  | ignored (path : Text)
  /-- A file was reached. -/
  | file (path name : Text)
  deriving Repr

/-- A directory on the stack, with the entries that are still to be passed. -/
structure Frame where
  dir : Text
  pending : List Entry
  deriving Repr

/-- Starts with a directory: what happens, and the frame that goes on the
    stack if it can be listed. -/
def enter (tree : Tree) (dir : Text) : Event × List Frame :=
  match tree.list dir with
  | .ok entries => (.listed dir, [⟨dir, entries⟩])
  | .error why => (.unreadable dir why, [])

/-- Passes the entries of the stack. The events come behind those that have
    already happened, of which the last comes first. There is no answer when
    the steps run out. -/
def run (tree : Tree) (ignore : IgnoreSet) : Nat → List Frame → List Event → Option (List Event)
  | _, [], past => some past.reverse
  | 0, _ :: _, _ => none
  | steps + 1, ⟨dir, pending⟩ :: below, past =>
    match pending with
    | [] => run tree ignore steps below past
    | entry :: pending =>
      let path := Path.join dir entry.name
      let stack := ⟨dir, pending⟩ :: below
      if ignore.ignores entry.name then run tree ignore steps stack (.ignored path :: past)
      else match entry.kind with
        | .directory =>
          let (event, frames) := enter tree path
          run tree ignore steps (frames ++ stack) (event :: past)
        | .file => run tree ignore steps stack (.file path entry.name :: past)
        | .link => run tree ignore steps stack past

/-- The events of a walk from a directory. -/
def events (tree : Tree) (ignore : IgnoreSet) (steps : Nat) (root : Text) : Option (List Event) :=
  let (event, frames) := enter tree root
  run tree ignore steps frames [event]

/-- What keeps a walk from starting: the root is missing or no directory. -/
def rootProblem (tree : Tree) (root : Text) : Option Failure :=
  match tree.stat root with
  | .error f => some (.because .rootNotFound (root ++ text ": " ++ f.message))
  | .ok entry =>
    if entry.kind = .directory then none
    else some (.because .rootNotFound (root ++ text " is not a directory"))

/-- The walk from a root: what happens on it, unless it cannot start. -/
def walk (tree : Tree) (ignore : IgnoreSet) (steps : Nat) (root : Text) :
    Option (Except Failure (List Event)) :=
  match rootProblem tree root with
  | some f => some (.error f)
  | none => (events tree ignore steps root).map .ok

/-! ### What events tell -/

/-- The file that an event reaches. -/
def Event.file? : Event → Option (Text × Text)
  | .file path name => some (path, name)
  | _ => none

/-- The directory that could not be listed. -/
def Event.skip? : Event → Option Skip
  | .unreadable dir why => some ⟨dir, why.message⟩
  | _ => none

/-- Whether an event lists a directory. -/
def Event.isListed : Event → Bool
  | .listed _ => true
  | _ => false

/-- The message that an event logs. -/
def Event.log : Event → List Log.Entry
  | .unreadable dir why =>
    [.ofTemplate .error (text "Skipping directory %s: %v") [.str dir, .str why.message]]
  | .ignored path => [.ofTemplate .verbose (text "Ignoring %s") [.str path]]
  | _ => []

/-- The statistics of a walk. -/
structure Stats where
  /-- Every file that was reached, in that order. -/
  files : List Text := []
  /-- The number of directories that were listed. -/
  dirs : Int := 0
  /-- The directories that could not be listed. -/
  skipped : List Skip := []
  deriving DecidableEq, Repr

/-- The statistics of a list of events. -/
def stats (es : List Event) : Stats where
  files := (es.filterMap Event.file?).map (·.1)
  dirs := es.countP (·.isListed)
  skipped := es.filterMap Event.skip?

/-! ### Extensions -/

/-- An extension in the form in which extensions are compared: trimmed, in lower
    case, without a leading dot. -/
def normalizeExtension (e : Text) : Text :=
  match Text.lower (Text.trim e) with
  | [] => []
  | b :: rest => if b = Text.dot then rest else b :: rest

/-- Whether the name of a file passes a list of extensions. An empty list lets
    every file pass. -/
def accepts (extensions : List Text) (name : Text) : Bool :=
  let allowed := (extensions.map normalizeExtension).filter (!·.isEmpty)
  allowed.isEmpty || allowed.contains (normalizeExtension (Path.extension name))

/-- The files among events that pass a list of extensions. -/
def candidates (extensions : List Text) (es : List Event) : List Text :=
  ((es.filterMap Event.file?).filter fun (_, name) => accepts extensions name).map (·.1)

end ImportFinder.Walk
