import ImportFinder.Log.Template
import ImportFinder.Text.Reader
import ImportFinder.Text.Space
import ImportFinder.Tree.Basic

/-!
# Ignore entries

Names that a search passes over. Entries are literal texts and no patterns: a
name is ignored when an entry contains it or it contains an entry, so that
`node_modules` is excluded by the entry `/node_modules/` too.

The entries of a search are the built-in ones, those of the request, and the
lines of the project's ignore file. A file that does not exist contributes
nothing; nor does one that cannot be read, but that is logged as an error.
-/

namespace ImportFinder

/-- Ignore entries without repetition. -/
structure IgnoreSet where
  entries : List Text
  deriving DecidableEq, Repr

namespace IgnoreSet

/-- The trimmed entries that are not blank, each at its first occurrence. -/
def ofList (entries : List Text) : IgnoreSet :=
  ⟨((entries.map Text.trim).foldl (fun kept e =>
    if e.isEmpty || kept.contains e then kept else e :: kept) []).reverse⟩

/-- Whether a name is to be passed over. -/
def ignores (s : IgnoreSet) (name : Text) : Bool :=
  !name.isEmpty && s.entries.any fun e => Text.occursIn name e || Text.occursIn e name

/-- The names that are always passed over: version control and build output. -/
def builtin : List Text := [text ".git", text "dist", text "node_modules"]

/-- The longest line of an ignore file, in bytes: with its line feed it fills a
    buffer of 64 KiB. -/
def longestLine : Nat := 65535

/-- The entries on the lines of an ignore file: the trimmed lines, without the
    blank ones and those that hold a `#` anywhere. -/
def entriesOf (lines : List Text) : List Text :=
  (lines.map Text.trim).filter fun line => !line.isEmpty && !line.contains 0x23

/-- The entries of an ignore file. Reading stops at a line that is too long. -/
def parse (content : Text) : List Text := entriesOf (Text.readLines longestLine content)

/-- The ignore set of a search and what is logged while it is made. -/
def load (tree : Tree) (ignoreFile : Text) (extra : List Text) : IgnoreSet × List Log.Entry :=
  let entries := builtin ++ extra
  if ignoreFile.isEmpty then (ofList entries, [])
  else match tree.read ignoreFile with
    | .ok content =>
      let lines := parse content
      (ofList (entries ++ lines),
        [.ofTemplate .verbose (text "Loaded %d ignore entries from %s")
          [.int lines.length, .str ignoreFile]])
    | .error f =>
      if f.has .notExist then
        (ofList entries,
          [.ofTemplate .verbose
            (text "Ignore file %s does not exist, using built-in entries only") [.str ignoreFile]])
      else
        (ofList entries,
          [.ofTemplate .error (text "Failed to read ignore file %s: %v")
            [.str ignoreFile, .str f.message]])

end IgnoreSet

end ImportFinder
