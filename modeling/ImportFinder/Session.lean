import ImportFinder.Walk

/-!
# Sessions

A session gathers what one search finds: the records of files with matches, the
files that could not be read, and the statistics of the walk. `Session.result`
may be taken at any time; what is added later does not change it.

A session is named by sixteen random bytes, written as a UUID of version 4.
-/

namespace ImportFinder

/-- The name of a session from sixteen random bytes: the version and the variant
    replace some of their bits. -/
def sessionName (random : List UInt8) : Text :=
  let bytes := (List.range 16).map fun i =>
    let b := (random.getD i 0).toNat
    if i = 6 then b % 16 + 0x40 else if i = 8 then b % 64 + 0x80 else b
  let groups := [bytes.take 4, (bytes.drop 4).take 2, (bytes.drop 6).take 2,
    (bytes.drop 8).take 2, bytes.drop 10]
  Text.joinWith (text "-") (groups.map fun g => g.flatMap (Text.hex Text.digit 2))

/-- What one search has found so far. -/
structure Session where
  id : Text
  target : Target
  root : Text
  mode : MatchMode
  files : List FileRecord := []
  /-- The files that could not be read. -/
  fileSkips : List Skip := []
  walk : Walk.Stats := {}
  matchCount : Nat := 0
  unusedCount : Nat := 0
  deriving DecidableEq, Repr

namespace Session

/-- A session that has found nothing yet. -/
def start (id : Text) (r : Request) : Session :=
  { id, target := r.target, root := r.root, mode := r.mode }

/-- Adds a record, unless it has no matches. -/
def addRecord (s : Session) (f : FileRecord) : Session :=
  if f.hits.isEmpty then s
  else { s with
    files := s.files ++ [f]
    matchCount := s.matchCount + f.hits.length
    unusedCount := s.unusedCount + f.unusedCount }

/-- Adds a file that could not be read. -/
def addSkip (s : Session) (skip : Skip) : Session :=
  { s with fileSkips := s.fileSkips ++ [skip] }

/-- Takes over the statistics of the walk. -/
def setStats (s : Session) (stats : Walk.Stats) : Session := { s with walk := stats }

/-- What has been found so far. -/
def result (s : Session) : Result where
  sessionId := s.id
  target := s.target
  root := s.root
  mode := s.mode
  files := s.files
  visited := s.walk.files
  skipped := s.walk.skipped ++ s.fileSkips
  filesVisited := s.walk.files.length
  dirsVisited := s.walk.dirs
  matchCount := s.matchCount
  filesWithMatches := s.files.length
  unusedCount := s.unusedCount

end Session

end ImportFinder
