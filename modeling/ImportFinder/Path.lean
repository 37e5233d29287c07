import ImportFinder.Text.Basic

/-!
# Paths

A path is a text whose components are separated by slashes; it is absolute when
it starts with one. Paths are treated lexically: nothing here looks at a tree.

A path is cleaned by passing its components over a stack: empty components and
`.` are dropped, and `..` takes back the component before it. At the start of an
absolute path `..` has nothing to take back and is dropped too; at the start of
a relative path it stays. The cleaned path is the shortest one that names the
same place.

* `clean`, the cleaned path;
* `join`, one path below another, cleaned;
* `base`, `parent` and `extension`, its parts;
* `relative?`, a path as seen from another one.
-/

namespace ImportFinder.Path

/-- The component that names the directory itself. -/
def here : Text := [Text.dot]

/-- The component that names the parent directory. -/
def up : Text := [Text.dot, Text.dot]

/-- Whether a path starts at the root. -/
def isAbsolute (p : Text) : Bool := p.head? == some Text.slash

/-- One component is put on the stack of components already seen, of which the
    last comes first. -/
def push (absolute : Bool) (stack : List Text) (component : Text) : List Text :=
  if component = [] ∨ component = here then stack
  else if component = up then
    match stack with
    | [] => if absolute then [] else [up]
    | top :: below => if top = up then up :: top :: below else below
  else component :: stack

/-- The components of a cleaned path. -/
def components (p : Text) : List Text :=
  ((Text.split Text.slash p).foldl (push (isAbsolute p)) []).reverse

/-- The path with given components. -/
def render (absolute : Bool) (cs : List Text) : Text :=
  if absolute then Text.slash :: Text.joinWith [Text.slash] cs
  else if cs.isEmpty then here
  else Text.joinWith [Text.slash] cs

/-- The shortest path that names the same place. -/
def clean (p : Text) : Text := render (isAbsolute p) (components p)

/-- The path `q` below `p`, cleaned. Two empty paths give the empty path. -/
def join (p q : Text) : Text :=
  if p.isEmpty then if q.isEmpty then [] else clean q
  else clean (p ++ Text.slash :: q)

/-- A path without trailing slashes. -/
def dropSlashes (p : Text) : Text := (p.reverse.dropWhile (· == Text.slash)).reverse

/-- The last component of a path; `.` for the empty path and `/` for a path of
    slashes. -/
def base (p : Text) : Text :=
  if p.isEmpty then here
  else
    let q := dropSlashes p
    if q.isEmpty then [Text.slash]
    else match Text.splitLast Text.slash q with
      | some (_, last) => last
      | none => q

/-- The path of the directory that holds a path, cleaned. -/
def parent (p : Text) : Text :=
  match Text.splitLast Text.slash p with
  | some (before, _) => clean (before ++ [Text.slash])
  | none => here

/-- The last component's part from its last dot on, empty if it has no dot. -/
def extension (p : Text) : Text :=
  let last := match Text.splitLast Text.slash p with
    | some (_, last) => last
    | none => p
  match Text.splitLast Text.dot last with
  | some (_, ext) => Text.dot :: ext
  | none => []

/-- What is left of two lists without their longest common start. -/
def dropCommon : List Text → List Text → List Text × List Text
  | a :: as, b :: bs => if a = b then dropCommon as bs else (a :: as, b :: bs)
  | as, bs => (as, bs)

/-- The path `p` as seen from the directory `from_`: up as often as needed, then
    down. There is none when only one of them is absolute, or when it would
    need the name of a directory above `from_`. -/
def relative? (from_ p : Text) : Option Text :=
  if clean p = clean from_ then some here
  else if isAbsolute from_ != isAbsolute p then none
  else
    let target := if clean p = here then [here] else components p
    let (ups, downs) := dropCommon (components from_) target
    if ups.head? = some up then none
    else some (Text.joinWith [Text.slash] (ups.map (fun _ => up) ++ downs))

/-- A path given by the user: an absolute one stands for itself, another one is
    taken from the working directory. -/
def resolve (work p : Text) : Text := if isAbsolute p then clean p else join work p

/-- A path as shown to the user: relative to the working directory, unless that
    starts with two dots. -/
def display (work p : Text) : Text :=
  match relative? work p with
  | some shown => if up.isPrefixOf shown then p else shown
  | none => p

end ImportFinder.Path
