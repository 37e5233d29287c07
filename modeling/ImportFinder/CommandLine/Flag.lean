import ImportFinder.CommandLine.Csv
import ImportFinder.Plan
import ImportFinder.Text.Quoted

/-!
# Flags

The flags of the command line and how they are read. A flag is written `--name`,
with its value behind an equals sign or as the next argument; a switch needs no
value. Flags with a letter may be written with a single dash, several of them
together. Behind `--` everything is an argument.

Reading stops at the first flag that is unknown, lacks its value or refuses it,
and at the request for help.
-/

namespace ImportFinder

/-- The flags of the program, sorted by name. -/
inductive Flag
  | config
  | ext
  | format
  | help
  | ignore
  | ignoreFile
  | mode
  | noDescriptions
  | unusedOnly
  | verbose
  deriving DecidableEq, Repr

namespace Flag

/-- The name of a flag. -/
def name : Flag → Text
  | .config => text "config"
  | .ext => text "ext"
  | .format => text "format"
  | .help => text "help"
  | .ignore => text "ignore"
  | .ignoreFile => text "ignore-file"
  | .mode => text "mode"
  | .noDescriptions => text "no-descriptions"
  | .unusedOnly => text "unused-only"
  | .verbose => text "verbose"

/-- The letter of a flag. -/
def letter? : Flag → Option UInt8
  | .verbose => some 0x76
  | _ => none

/-- Whether a flag needs no value. -/
def isSwitch : Flag → Bool
  | .help | .noDescriptions | .unusedOnly | .verbose => true
  | _ => false

/-- Whether a flag may be given several times with effect. -/
def isList : Flag → Bool
  | .ext | .ignore => true
  | _ => false

/-- What a flag is for. -/
def description : Flag → Text
  | .config => text "Config file path (default ./.fir.yaml)"
  | .ext => text "Only scan files with these extensions (can be specified multiple times)"
  | .format => text "Output format: text, json or yaml (default text, overrides $FIR_FORMAT)"
  | .help => text "Help for fir"
  | .ignore => text "Additional ignore entries (can be specified multiple times)"
  | .ignoreFile =>
    text "Ignore file with one entry per line (default .gitignore, overrides $FIR_IGNORE_FILE)"
  | .mode => text "Match mode: path or word (default path, overrides $FIR_MODE)"
  | .noDescriptions => text "disable completion descriptions"
  | .unusedOnly => text "Only report imports whose identifier is never used"
  | .verbose => text "Enable verbose output for all commands"

/-- A flag as messages call it. -/
def title (f : Flag) : Text :=
  match f.letter? with
  | some letter => [0x2D, letter] ++ text ", --" ++ f.name
  | none => text "--" ++ f.name

/-- The flag with a name. -/
def named? (flags : List Flag) (name : Text) : Option Flag := flags.find? (·.name == name)

/-- The flag with a letter. -/
def lettered? (flags : List Flag) (letter : UInt8) : Option Flag :=
  flags.find? (·.letter? == some letter)

end Flag

/-- What the command line says: the values of the flags, which of them were
    given, and the arguments. -/
structure Given where
  flags : Flags := {}
  verbose : Bool := false
  help : Bool := false
  changed : List Flag := []
  args : List Text := []
  deriving DecidableEq, Repr

/-- Why reading flags stopped. -/
inductive Stop
  /-- Help was asked for. -/
  | help
  /-- Something is wrong with the flags. -/
  | misuse (message : Text)
  deriving DecidableEq, Repr

/-- The text of a stop. -/
def Stop.message : Stop → Text
  | .help => text "pflag: help requested"
  | .misuse message => message

/-- The failure of a stop. -/
def Stop.failure (s : Stop) : Failure := .plain s.message

namespace Given

/-- The truth value of a switch. -/
def switch? (value : Text) : Except Text Bool :=
  if ["1", "t", "T", "true", "TRUE", "True"].any (text · == value) then .ok true
  else if ["0", "f", "F", "false", "FALSE", "False"].any (text · == value) then .ok false
  else .error (text "strconv.ParseBool: parsing " ++ Text.quoted value ++ text ": invalid syntax")

/-- Sets a flag. The items of a list are added to those given before. -/
def set (g : Given) (f : Flag) (value : Text) : Except Text Given := do
  let flags := g.flags
  let g := { g with changed := f :: g.changed }
  match f with
  | .config => return { g with flags := { flags with config := value } }
  | .ext =>
    return { g with flags := { flags with extensions := flags.extensions ++ (← Csv.parse value) } }
  | .format => return { g with flags := { flags with format := value } }
  | .help => return { g with help := ← switch? value }
  | .ignore =>
    return { g with flags := { flags with ignore := flags.ignore ++ (← Csv.parse value) } }
  | .ignoreFile => return { g with flags := { flags with ignoreFile := value } }
  | .mode => return { g with flags := { flags with mode := value } }
  | .noDescriptions =>
    let _ ← switch? value
    return g
  | .unusedOnly => return { g with flags := { flags with unusedOnly := ← switch? value } }
  | .verbose => return { g with verbose := ← switch? value }

/-- Sets a flag, or tells why it refuses the value. -/
def assign (g : Given) (f : Flag) (value : Text) : Except Stop Given :=
  match g.set f value with
  | .ok g => .ok g
  | .error why =>
    .error (.misuse (text "invalid argument " ++ Text.quoted value ++ text " for " ++
      Text.quoted f.title ++ text " flag: " ++ why))

/-- The value of a switch that is given without one. -/
def on : Text := text "true"

/-- How an unknown letter is shown. -/
def shownLetter (letter : UInt8) : Text :=
  let c := Char.ofNat letter.toNat
  let c := if c.toNat < 0x80 then c else if c.toNat < 0xC0 then Char.ofNat 0xC2 else Char.ofNat 0xC3
  Text.quotedChar false c

/-- Reads flags given by their letters. Only switches have letters, so that none
    of them takes the next argument. -/
def readLetters (flags : List Flag) (g : Given) : (fuel : Nat) → Text → Except Stop Given
  | 0, _ => .ok g
  | _ + 1, [] => .ok g
  | fuel + 1, letter :: rest =>
    if (text "test.").isPrefixOf (letter :: rest) then .ok g
    else match Flag.lettered? flags letter with
      | none =>
        if letter = 0x68 then .error .help
        else .error (.misuse (text "unknown shorthand flag: " ++ shownLetter letter ++
          text " in -" ++ letter :: rest))
      | some f =>
        match rest with
        | 0x3D :: b :: value => g.assign f (b :: value)
        | _ => do
          let g ← g.assign f on
          readLetters flags g fuel rest

/-- Reads a flag given by its name, and gives the arguments that are left. -/
def readNamed (flags : List Flag) (g : Given) (arg : Text) (rest : List Text) :
    Except Stop (Given × List Text) :=
  let body := arg.drop 2
  if body.head? = some 0x2D ∨ body.head? = some 0x3D then
    .error (.misuse (text "bad flag syntax: " ++ arg))
  else
    let (name, value) := match Text.splitFirst 0x3D body with
      | some (name, value) => (name, some value)
      | none => (body, none)
    match Flag.named? flags name with
    | none => .error (if name = Flag.help.name then .help
        else .misuse (text "unknown flag: --" ++ name))
    | some f =>
      match value, rest with
      | some value, rest => do return (← g.assign f value, rest)
      | none, rest =>
        if f.isSwitch then do return (← g.assign f on, rest)
        else match rest with
          | value :: rest => do return (← g.assign f value, rest)
          | [] => .error (.misuse (text "flag needs an argument: --" ++ name))

/-- Reads the flags and the arguments. Whatever was read before a stop is given
    along with it. -/
def read (flags : List Flag) (g : Given) : (fuel : Nat) → List Text → Given × Option Stop
  | 0, _ => (g, none)
  | _ + 1, [] => (g, none)
  | fuel + 1, arg :: rest =>
    match arg with
    | 0x2D :: 0x2D :: [] => ({ g with args := g.args ++ rest }, none)
    | 0x2D :: 0x2D :: _ =>
      match readNamed flags g arg rest with
      | .ok (g, rest) => read flags g fuel rest
      | .error stop => (g, some stop)
    | 0x2D :: b :: letters =>
      match readLetters flags g (letters.length + 1) (b :: letters) with
      | .ok g => read flags g fuel rest
      | .error stop => (g, some stop)
    | arg => read flags { g with args := g.args ++ [arg] } fuel rest

/-- What a list of arguments says, when some flags are known. -/
def ofArgs (flags : List Flag) (args : List Text) : Except Stop Given :=
  match read flags {} (args.length + 1) args with
  | (g, none) => .ok g
  | (_, some stop) => .error stop

end Given

end ImportFinder
