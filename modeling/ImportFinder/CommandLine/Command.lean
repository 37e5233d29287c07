import ImportFinder.CommandLine.Flag

/-!
# Commands

The program searches, unless its first argument names one of its commands. To find
the first argument, the flags before it have to be passed over, and with them the
values of those that take one. A flag that is not known is taken to have a value.
-/

namespace ImportFinder

/-- The shells for which a completion script can be made. -/
inductive Shell
  | bash
  | fish
  | powershell
  | zsh
  deriving DecidableEq, Repr

/-- The name of a shell. -/
def Shell.name : Shell → Text
  | .bash => text "bash"
  | .fish => text "fish"
  | .powershell => text "powershell"
  | .zsh => text "zsh"

/-- The shells in the order in which they are listed. -/
def Shell.all : List Shell := [.bash, .fish, .powershell, .zsh]

/-- The commands of the program. -/
inductive Command
  /-- Search for the references of a target. -/
  | search
  /-- Complete a command line, with or without descriptions. -/
  | complete (descriptions : Bool)
  | completion
  | completionFor (shell : Shell)
  | help
  | version
  deriving DecidableEq, Repr

namespace Command

/-- The name of the program. -/
def program : Text := text "fir"

/-- The name of a command. -/
def name : Command → Text
  | .search => program
  | .complete true => text "__complete"
  | .complete false => text "__completeNoDesc"
  | .completion => text "completion"
  | .completionFor shell => shell.name
  | .help => text "help"
  | .version => text "version"

/-- What a command is for. -/
def description : Command → Text
  | .search => text "Find the files that import a given file"
  | .complete _ => text "Request shell completion choices for the specified command-line"
  | .completion => text "Generate the autocompletion script for the specified shell"
  | .completionFor shell => text "Generate the autocompletion script for " ++ shell.name
  | .help => text "Help about any command"
  | .version => text "Show version information"

/-- A command with the commands that lead to it. -/
def path : Command → Text
  | .search => program
  | .completionFor shell => program ++ text " completion " ++ shell.name
  | c => program ++ Text.blank :: c.name

/-- The commands below a command that are shown to the user, in order. -/
def shown : Command → List Command
  | .search => [.completion, .help, .version]
  | .completion => Shell.all.map .completionFor
  | _ => []

/-- The commands below a command. -/
def below : Command → List Command
  | .search => [.complete true, .complete false, .completion, .help, .version]
  | c => c.shown

/-- The flags that every command takes over from the program. -/
def inherited : List Flag := [.help, .verbose]

/-- The flags of a command itself. -/
def own : Command → List Flag
  | .search =>
    [.config, .ext, .format, .help, .ignore, .ignoreFile, .mode, .unusedOnly, .verbose]
  | .completionFor _ => [.noDescriptions]
  | _ => []

/-- The flags that a command knows. -/
def flags : Command → List Flag
  | .search => own .search
  | c => c.own ++ inherited

/-- Whether a command reads flags. Completion takes all words as they are. -/
def readsFlags : Command → Bool
  | .complete _ => false
  | _ => true

/-- Whether an argument is a flag whose value is the next argument. -/
def takesNext (flags : List Flag) (arg : Text) : Bool :=
  !arg.contains 0x3D && match arg with
    | 0x2D :: 0x2D :: name => !(Flag.named? flags name).any (·.isSwitch)
    | [0x2D, letter] => !(Flag.lettered? flags letter).any (·.isSwitch)
    | _ => false

/-- The first argument that is no flag and no value of one. The last argument is
    always taken for the value of a flag before it, if that takes one. -/
def firstArgument? (flags : List Flag) : List Text → Option Text
  | [] => none
  | arg :: rest =>
    if arg = text "--" then none
    else if takesNext flags arg then
      match rest with
      | _ :: next :: more => firstArgument? flags (next :: more)
      | _ => none
    else if arg.isEmpty || arg.head? = some 0x2D then firstArgument? flags rest
    else some arg

/-- The arguments without the first one that equals `word` and is no flag and no
    value of one. -/
def dropArgument (flags : List Flag) (word : Text) : List Text → List Text
  | [] => []
  | arg :: rest =>
    if arg = text "--" then arg :: rest
    else if takesNext flags arg then
      match rest with
      | value :: rest => arg :: value :: dropArgument flags word rest
      | [] => [arg]
    else if arg.head? ≠ some 0x2D ∧ arg = word then rest
    else arg :: dropArgument flags word rest

/-- The command that the arguments select below a command, and the arguments that
    are left for it. Commands lie at most two levels deep. -/
def findBelow : (levels : Nat) → Command → List Text → Command × List Text
  | 0, c, args => (c, args)
  | levels + 1, c, args =>
    match firstArgument? c.flags args with
    | none => (c, args)
    | some word =>
      match c.below.find? (·.name == word) with
      | none => (c, args)
      | some next => findBelow levels next (dropArgument c.flags word args)

/-- The command that the arguments select, and the arguments that are left. -/
def find (args : List Text) : Command × List Text := findBelow 2 .search args

/-- What is wrong with the arguments of a search: there has to be a target, and
    there may be a root. -/
def searchArgsProblem (args : List Text) : Option Failure :=
  if args.isEmpty then
    some (.plain (text "missing required argument: <target>\n\nUsage: " ++ program ++
      text " <target> [search_root] [flags]\n\nExample:\n  " ++ program ++ text " utils.js ./src"))
  else if 2 < args.length then
    some (.plain (text "accepts between 1 and 2 arg(s), received " ++ Text.ofNat args.length))
  else none

/-- What is wrong with the arguments of a command. -/
def argsProblem (c : Command) (args : List Text) : Option Failure :=
  match c, args with
  | .search, args => searchArgsProblem args
  | .complete _, [] => some (.plain (text "requires at least 1 arg(s), only received 0"))
  | .complete _, _ => none
  | .help, _ => none
  | _, [] => none
  | c, arg :: _ =>
    some (.plain (text "unknown command " ++ Text.quoted arg ++ text " for " ++ Text.quoted c.path))

end Command

end ImportFinder
