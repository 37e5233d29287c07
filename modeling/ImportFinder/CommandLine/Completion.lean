import ImportFinder.CommandLine.Command

/-!
# Completion

What a shell may offer for the last word of a command line. An offer is a word
with an optional description. A directive tells the shell what else it may offer:
by default file names, directories only, or nothing.

The word is the value of a flag, if the word before it is such a flag or it starts
with one and an equals sign; the name of a flag, if it starts with a dash; or an
argument, where the names of commands are offered as well.
-/

namespace ImportFinder.Completion

/-- What else a shell may offer. -/
inductive Directive
  | default
  | noFiles
  | directories
  deriving DecidableEq, Repr

/-- The number of a directive. -/
def Directive.number : Directive → Nat
  | .default => 0
  | .noFiles => 4
  | .directories => 16

/-- The name of a directive. -/
def Directive.name : Directive → Text
  | .default => text "ShellCompDirectiveDefault"
  | .noFiles => text "ShellCompDirectiveNoFileComp"
  | .directories => text "ShellCompDirectiveFilterDirs"

/-- A word that is offered. -/
structure Offer where
  word : Text
  description : Text := []
  deriving DecidableEq, Repr

/-- The offer of a command. -/
def Offer.ofCommand (c : Command) : Offer := ⟨c.name, c.description⟩

/-- An offer on a line of its own. -/
def Offer.line (o : Offer) (descriptions : Bool) : Text :=
  let shown := if descriptions then o.word ++ Text.tab :: o.description else o.word
  Text.trim (shown.takeWhile (· != Text.newline)) ++ [Text.newline]

/-- The words that start with what has been typed. -/
def startingWith (typed : Text) (words : List Text) : List Text := words.filter (typed.isPrefixOf ·)

/-- The match modes that start with what has been typed. -/
def modes (typed : Text) : List Text × Directive :=
  (startingWith typed (MatchMode.all.map (·.name)), .noFiles)

/-- The formats that start with what has been typed. -/
def formats (typed : Text) : List Text × Directive :=
  (startingWith typed (Report.Format.all.map (·.name)), .noFiles)

/-- What may follow the arguments of a search: a file for the target, a directory
    for the root, and nothing behind it. -/
def searchArgs (args : List Text) : List Text × Directive :=
  ([], match args with
    | [] => .default
    | [_] => .directories
    | _ => .noFiles)

/-- What is offered, what else may be, and what is wrong with the command line. -/
structure Answer where
  offers : List Offer := []
  directive : Directive := .default
  problem : Option Text := none
  deriving DecidableEq, Repr

/-! ### The flag whose value is typed -/

/-- The flag that a command knows by a name or by a letter. -/
def findFlag? (c : Command) (name : Text) : Option Flag :=
  match name with
  | [letter] => Flag.lettered? c.flags letter
  | name => Flag.named? c.flags name

/-- Whether a word is a flag. -/
def isFlagWord (word : Text) : Bool :=
  match word with
  | 0x2D :: 0x2D :: _ :: _ => true
  | 0x2D :: b :: _ => b != 0x2D
  | _ => false

/-- What is being typed. -/
structure Typed where
  /-- The flag whose value is typed, if it is one. -/
  flag : Option Flag := none
  /-- The complete words before it, without that flag. -/
  args : List Text
  word : Text
  /-- A flag that the command does not know. -/
  unknown : Option Text := none

/-- The name of the flag in a word with an equals sign at an index: the last
    letter, if it is written with a single dash. -/
def nameBefore (word : Text) (index : Nat) : Text :=
  if (text "--").isPrefixOf (word.take index) then (word.take index).drop 2
  else (word.take index).drop (index - 1)

/-- Looks up the flag whose value is typed. -/
def resolve (c : Command) (args : List Text) (word typed name : Text) (kept : List Text)
    (hasEquals : Bool) : Typed :=
  if name.isEmpty then { args := kept, word := typed }
  else match findFlag? c name with
    | none => { args, word, unknown := some name }
    | some f =>
      if !hasEquals && f.isSwitch then { args, word := typed }
      else { flag := some f, args := kept, word := typed }

/-- What is being typed as the last word behind others. -/
def typed (c : Command) (args : List Text) (word : Text) : Typed :=
  let previous (typed : Text) : Typed :=
    match args.getLast? with
    | some last =>
      if isFlagWord last && !last.contains 0x3D then
        let name := if (text "--").isPrefixOf last then last.drop 2 else last.drop (last.length - 1)
        resolve c args word typed name args.dropLast false
      else { args, word := typed }
    | none => { args, word := typed }
  if word.head? = some 0x2D then
    match Text.splitFirst 0x3D word with
    | none => { args, word }
    | some (before, after) =>
      let name := nameBefore word before.length
      if name.isEmpty then previous after else resolve c args word after name args true
  else previous word

/-! ### Offers -/

/-- The offers of the name and the letter of a flag. -/
def flagOffers (word : Text) (f : Flag) : List Offer :=
  let forms := (text "--" ++ f.name) :: match f.letter? with
    | some letter => [[0x2D, letter]]
    | none => []
  (startingWith word forms).map (⟨·, f.description⟩)

/-- The flags of a command that may still be given, those that it takes over
    first. -/
def openFlags (c : Command) (g : Given) : List Flag :=
  let all := match c with
    | .search => c.own
    | c => Command.inherited ++ c.own
  all.filter fun f => !g.changed.contains f || f.isList

/-- The offers of commands. -/
def commandOffers (word : Text) (cs : List Command) : List Offer :=
  (cs.filter (word.isPrefixOf ·.name)).map Offer.ofCommand

/-- The offers for an argument of a command, besides the commands below it. -/
def argOffers (c : Command) (args : List Text) (word : Text) : Option (List Offer × Directive) :=
  match c with
  | .search =>
    let (words, directive) := searchArgs args
    some (words.map (⟨·, []⟩), directive)
  | .help => some (commandOffers word (Command.find args).1.shown, .noFiles)
  | .completion => some ([], .noFiles)
  | .completionFor _ => some ([], .noFiles)
  | _ => none

/-- The offers for the value of a flag. -/
def valueOffers (f : Flag) (word : Text) : List Offer × Directive :=
  match f with
  | .mode => let (words, directive) := modes word; (words.map (⟨·, []⟩), directive)
  | .format => let (words, directive) := formats word; (words.map (⟨·, []⟩), directive)
  | _ => ([], .default)

/-- The offers for an argument: the commands below, if there is no argument and no
    flag of the command itself before it, and the arguments of the command. -/
def positional (c : Command) (g : Given) (word : Text) : List Offer × Directive :=
  let ownFlag := c.own.any fun f => !Command.inherited.contains f && g.changed.contains f
  let commands := if g.args.isEmpty && !ownFlag then c.shown else []
  let offers := commandOffers word commands
  match argOffers c g.args word with
  | some (more, directive) => (offers ++ more, directive)
  | none => (offers, if commands.isEmpty then .default else .noFiles)

/-- What may be offered for the last word of the arguments of a command, once its
    flags have been read. `flagsEnded` says that no flag may follow. -/
def answerFor (c : Command) (t : Typed) (given : Given) (flagsEnded : Bool) : Answer :=
  match t.flag, t.unknown with
  | none, some name =>
    if flagsEnded then
      let (offers, directive) := positional c given t.word
      { offers, directive }
    else { problem := some (text "Subcommand '" ++ c.name ++ text "' does not support flag '" ++
        name ++ text "'") }
  | some f, _ =>
    if flagsEnded then
      match argOffers c given.args t.word with
      | some (offers, directive) => { offers, directive }
      | none => {}
    else
      let (offers, directive) := valueOffers f t.word
      { offers, directive }
  | none, none =>
    if t.word.head? = some 0x2D && !t.word.contains 0x3D && !flagsEnded then
      { offers := (openFlags c given).flatMap (flagOffers t.word), directive := .noFiles }
    else
      let (offers, directive) := positional c given t.word
      { offers, directive }

/-- What may be offered for the last of some words. An extra `--` behind the words
    becomes an argument exactly when the words hold one already: then no flag may
    follow. -/
def answer (words : List Text) : Answer :=
  let (c, args) := Command.find words.dropLast
  let word := words.getLast?.getD []
  if c.readsFlags then
    let t := typed c args word
    let (marked, _) := Given.read c.flags {} (t.args.length + 2) (t.args ++ [text "--"])
    match Given.read c.flags { marked with args := [] } (t.args.length + 1) t.args with
    | (_, some stop) =>
      { problem := some (text "Error while parsing flags from args [" ++
          Text.joinWith [Text.blank] t.args ++ text "]: " ++ stop.message) }
    | (given, none) => answerFor c t given (given.args.length < marked.args.length)
  else answerFor c { args, word } { args } false

/-- Whether the offers for some words have descriptions. A completion command among
    the words decides for itself. -/
def describes (words : List Text) (descriptions : Bool) : Bool :=
  match (Command.find words.dropLast).1 with
  | .complete own => own
  | _ => descriptions

end ImportFinder.Completion
