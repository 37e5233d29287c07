import ImportFinder.Scan
import ImportFinder.Session

/-!
# Searching

A search checks its request, walks the tree below the root and scans every file
that passes the list of extensions. Bad requests and a bad root make it fail
before anything is listed or logged. After that nothing makes it fail: what
cannot be read is logged and listed in the result. The walk looks at the root by
itself, and would fail in its own words, but the search has looked before.
-/

namespace ImportFinder.Search

/-- What keeps a search from starting: the root is missing or no directory. -/
def rootProblem (tree : Tree) (root : Text) : Option Failure :=
  match tree.stat root with
  | .error _ => some (.because .rootNotFound root)
  | .ok entry =>
    if entry.kind = .directory then none
    else some (.because .rootNotFound (root ++ text " is not a directory"))

/-- What reading and scanning a file gives. -/
def scanFile (tree : Tree) (mode : MatchMode) (target : Target) (path : Text) :
    Except Failure FileRecord :=
  match tree.read path with
  | .error f => .error (.within (text "failed to read file " ++ path) f)
  | .ok content => .ok (scan mode target path content)

/-- A message that belongs to a session. -/
def note (id : Text) (template : String) (values : List Log.Value) : Log.Entry :=
  .ofTemplate .verbose (text "[%s] " ++ text template) (.str id :: values)

/-- What scanning a file adds to a session and its log. -/
def visit (tree : Tree) (r : Request) (state : Session × List Log.Entry) (path : Text) :
    Session × List Log.Entry :=
  let (session, log) := state
  match scanFile tree r.mode r.target path with
  | .error f =>
    (session.addSkip ⟨path, f.message⟩,
      log ++ [.ofTemplate .error (text "Skipping file: %v") [.str f.message]])
  | .ok record =>
    if record.hits.isEmpty then (session, log)
    else (session.addRecord record,
      log ++ [note session.id "%s: %d match(es)" [.str path, .int record.hits.length]])

/-- What an event of the walk adds to a session and its log. -/
def handle (tree : Tree) (r : Request) (state : Session × List Log.Entry) (e : Walk.Event) :
    Session × List Log.Entry :=
  match e with
  | .file path name => if Walk.accepts r.extensions name then visit tree r state path else state
  | e => (state.1, state.2 ++ e.log)

/-- The message with which a search starts. -/
def startNote (id : Text) (r : Request) : Log.Entry :=
  note id "Searching %q (name %q) in %s, mode %s"
    [.str r.target.render, .str r.target.name, .str r.root, .str r.mode.name]

/-- The message with the ignore entries of a search. -/
def ignoreNote (id : Text) (s : IgnoreSet) : Log.Entry :=
  note id "Ignore entries: %v" [.ofList s.entries]

/-- The message with which a search ends. -/
def endNote (id : Text) (r : Result) : Log.Entry :=
  note id "Visited %d files in %d directories, %d match(es) in %d file(s)"
    [.int r.filesVisited, .int r.dirsVisited, .int r.matchCount, .int r.filesWithMatches]

/-- What a search finds and logs. -/
structure Report where
  result : Result
  log : List Log.Entry
  deriving DecidableEq, Repr

/-- What a search has logged when it ends, and how it ends. -/
structure Course where
  log : List Log.Entry
  ending : Except Failure Result

/-- What a search answers. -/
def Course.answer (c : Course) : Except Failure Report := c.ending.map (⟨·, c.log⟩)

/-- The search for a request that has been checked, below a root that has been
    checked. -/
def explore (tree : Tree) (id : Text) (steps : Nat) (r : Request) : Option Course := do
  let (ignore, ignoreLog) := IgnoreSet.load tree r.ignoreFile r.ignore
  let before := startNote id r :: ignoreLog ++ [ignoreNote id ignore]
  match ← Walk.walk tree ignore steps r.root with
  | .error f => return ⟨before, .error f⟩
  | .ok events =>
    let (session, log) := events.foldl (handle tree r) (Session.start id r, before)
    let result := (session.setStats (Walk.stats events)).result
    return ⟨log ++ [endNote id result], .ok result⟩

/-- A search, which is given the name of its session and the number of steps
    that its walk may take. There is no answer only when the steps run out. -/
def search (tree : Tree) (id : Text) (steps : Nat) (r : Request) :
    Option (Except Failure Report) :=
  match r.check with
  | some f => some (.error f)
  | none =>
    match rootProblem tree r.root with
    | some f => some (.error f)
    | none => (explore tree id steps { r with mode := r.mode.orDefault }).map Course.answer

end ImportFinder.Search
