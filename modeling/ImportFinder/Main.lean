import ImportFinder.Builtin
import ImportFinder.Tree.Disk

/-!
# The program

Runs the command line on the files of the machine. A search works on a picture of
the part of the disk that it looks at: the files that configure it, and then the
tree below its root, without the names that are ignored. Links are noted and not
followed; what cannot be read is left out.

A run is given more and more steps until it has an output. An output that is refused
is written once more, by a run that knows of the refusal.
-/

namespace ImportFinder.Program

open CommandLine

/-- The variables that the program reads. -/
def variableNames : List String :=
  ["FIR_MODE", "FIR_FORMAT", "FIR_IGNORE_FILE", "FIR_ROOT", "FIR_NON_INTERACTIVE", "CI", "NO_COLOR",
   "FIR_COMPLETION_DESCRIPTIONS", "COBRA_COMPLETION_DESCRIPTIONS"]

/-- The environment of the process. -/
def environment : IO Environment := do
  let mut found := []
  for name in variableNames do
    if let some value ← IO.getEnv name then
      found := (text name, text value) :: found
  return ⟨found⟩

/-- A text as a string of the operating system. -/
def osString (t : Text) : String := String.ofList (Utf8.chars t)

/-- Adds a file to a picture of the disk, if it can be read. A directory in its place is
    noted. -/
def addFile (d : Disk) (path : Text) : IO Disk := do
  try
    if ← (← IO.FS.realPath (osString path)).isDir then return d.addDirectory path
    let content ← IO.FS.readBinFile (osString path)
    return d.add path (.file content.toList)
  catch _ => return d

/-- Adds a directory and all that lies below it to a picture of the disk, without
    the names that are ignored. -/
partial def addTree (ignore : IgnoreSet) (d : Disk) (path : Text) : IO Disk := do
  try
    let dir ← IO.FS.realPath (osString path)
    let entries ← dir.readDir
    let mut d := d.addDirectory path
    for entry in entries do
      let name := text entry.fileName
      let below := Path.join path name
      if ignore.ignores name then d := d.addDirectory below
      else match (← entry.path.symlinkMetadata).type with
        | .dir => d ← addTree ignore (d.addDirectory below) below
        | .file => d ← addFile d below
        | .symlink => d := d.add below (.link [])
        | .other => pure ()
    return d
  catch _ => addFile d path

/-- The working directory, if it is known. -/
def workingDirectory : IO (Except Failure Text) := do
  try return .ok (text (← IO.currentDir).toString)
  catch e => return .error (.plain (text (toString e)))

/-- A picture of all that an invocation looks at. -/
def picture (work : Text) (env : Environment) : Invocation → IO Disk
  | .command .search g => do
    let files := [DotEnv.fileName, Config.fileName, g.flags.config].map (Path.resolve work)
    let d ← files.foldlM addFile (Disk.empty work)
    match Plan.build .builtin d.tree work env g.flags (g.args.headD []) (g.args.drop 1).head? with
    | .error _ => return d
    | .ok (plan, _) =>
      let r := plan.request
      let d ← addFile d r.ignoreFile
      addTree (IgnoreSet.load d.tree r.ignoreFile r.ignore).1 d r.root
  | _ => return Disk.empty work

/-- Writes a text. -/
def write (s : IO.FS.Stream) (t : Text) : IO Unit := s.write ⟨t.toArray⟩

/-- The output of a run that is given steps until it has one. -/
partial def output (h : Host) (args : List Text) (steps : Nat) : IO Output :=
  match CommandLine.run h steps args with
  | some o => return o
  | none => output h args (2 * steps)

/-- Runs the program on a host and writes what it has to say. -/
def report (h : Host) (args : List Text) : IO Output := do
  let stderr ← IO.getStderr
  let o ← output h args 1
  write stderr o.stderr
  try
    let stdout ← IO.getStdout
    write stdout o.stdout
    stdout.flush
    return o
  catch e =>
    let refused ← output { h with stdout := fun _ => some (.plain (text (toString e))) } args 1
    write stderr (refused.stderr.drop o.stderr.length)
    return refused

/-- Runs the program with its arguments and gives its exit code. -/
def run (args : List String) : IO UInt32 := do
  let args := args.map text
  let work ← workingDirectory
  let env ← environment
  let disk ← match work with
    | .ok work => picture work env (.ofArgs args)
    | .error _ => pure (Disk.empty (text "/"))
  let o ← report { Host.builtin disk.tree work with
    env
    terminal := { stdout := ← (← IO.getStdout).isTty, stderr := ← (← IO.getStderr).isTty }
    random := (← IO.getRandomBytes 16).toList } args
  return o.exitCode.number.toUInt32

end ImportFinder.Program

/-- The program. -/
def main (args : List String) : IO UInt32 := ImportFinder.Program.run args
