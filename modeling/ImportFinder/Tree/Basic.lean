import ImportFinder.Failure

/-!
# Trees

A search sees files through three questions: what stands at a path, what a
directory lists, and what a file holds. A `Tree` is any way to answer them. It
need not be consistent: a listed directory may refuse to be listed itself, and
listings come in any order.
-/

namespace ImportFinder

/-- What stands at a path. A link is neither a file nor a directory. -/
inductive EntryKind
  | file
  | directory
  | link
  deriving DecidableEq, Repr

/-- An entry of a tree. -/
structure Entry where
  name : Text
  kind : EntryKind
  /-- The number of bytes of a file. -/
  size : Nat := 0
  deriving DecidableEq, Repr

/-- The kind and permissions of an entry in the usual ten letters. -/
def EntryKind.permissions : EntryKind → Text
  | .file => text "-rw-r--r--"
  | .directory => text "drwxr-xr-x"
  | .link => text "Lrwxrwxrwx"

/-- Access to files and directories by path. -/
structure Tree where
  /-- What stands at a path. -/
  stat : Text → Except Failure Entry
  /-- What a directory lists. -/
  list : Text → Except Failure (List Entry)
  /-- What a file holds. -/
  read : Text → Except Failure Text

end ImportFinder
