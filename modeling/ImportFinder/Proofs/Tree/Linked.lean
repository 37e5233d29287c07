import ImportFinder.Proofs.Path.Parent
import ImportFinder.Tree.Memory
import Mathlib.Data.List.Forall2

/-!
# The names and the nodes of a tree in memory

A tree in memory says twice what a directory holds: by the table of nodes, whose
keys are cleaned paths, and by the names that the directory keeps. Nothing but
the way in which trees are built makes the two agree.

A tree is built by `Memory.build`: any changes (`Change`), one after the other,
to an empty root. What agrees is `Memory.Linked`: every node bears the base of
its path as its name, and every name that a node keeps leads to a node of that
name.

* `Linked.put`, `Linked.link`: the table and the names may be changed one after
  the other, if a node is put before its name;
* `Linked.apply`, `linked_build`: every change leaves a tree linked, so every
  tree that is built is;
* `Linked.listed`: in a linked tree, listing a path gives one of the failures of
  that path or one entry for each name (`Listed`). A listing never fails for
  want of a node.
-/

namespace ImportFinder

/-! ### Tables -/

namespace Table

variable {α : Type}

theorem get?_cons (k : Text) (v : α) (t : Table α) (q : Text) :
    get? ((k, v) :: t) q = if q = k then some v else t.get? q := by
  by_cases hq : q = k
  · rw [get?, List.lookup_cons, beq_iff_eq.2 hq, if_pos hq]
  · rw [get?, List.lookup_cons, beq_eq_false_iff_ne.2 hq, if_neg hq, get?]

/-- A value put at a key is found there, and nothing else is changed. -/
theorem get?_put (t : Table α) (key : Text) (value : α) (q : Text) :
    (t.put key value).get? q = if q = key then some value else t.get? q := by
  induction t with
  | nil => exact get?_cons key value [] q
  | cons first more ih =>
    obtain ⟨k, v⟩ := first
    by_cases hk : k = key
    · rw [put, if_pos hk, get?_cons, get?_cons, hk]
      split_ifs <;> rfl
    · rw [put, if_neg hk, get?_cons, get?_cons, ih]
      by_cases hq : q = k
      · rw [if_pos hq, if_pos hq, if_neg (hq ▸ hk)]
      · rw [if_neg hq, if_neg hq]

end Table

namespace Memory

/-! ### Trees that are built -/

/-- A change to a tree in memory. -/
inductive Change
  | file (path content : Text)
  | directory (path : Text)
  | link (path : Text)
  | failure (path : Text) (failure : Failure)

/-- The tree after a change. -/
def apply (m : Memory) : Change → Memory
  | .file path content => m.addFile path content
  | .directory path => m.addDir path
  | .link path => m.addLink path
  | .failure path failure => m.failOn path failure

/-- The tree that changes, one after the other, make of an empty root. -/
def build (root : Text) (changes : List Change) : Memory := changes.foldl apply (empty root)

/-! ### Names that lead to nodes -/

variable {m : Memory} {path : Text} {node : Node}

/-- A name leads from a path to a node of that name. -/
def Leads (m : Memory) (path name : Text) (child : Node) : Prop :=
  m.nodes.get? (Path.join path name) = some child ∧ child.entry.name = name

/-- The names that the nodes keep agree with the table of nodes. -/
structure Linked (m : Memory) : Prop where
  root_clean : Path.clean m.root = m.root
  name : ∀ {path node}, m.nodes.get? path = some node → node.entry.name = Path.base path
  leads : ∀ {path node}, m.nodes.get? path = some node →
    ∀ c ∈ node.children, ∃ child, m.Leads path c child

theorem get?_put_nodes (m : Memory) (path : Text) (node : Node) (q : Text) :
    (m.put path node).nodes.get? q = if q = path then some node else m.nodes.get? q :=
  Table.get?_put m.nodes path node q

/-- A name leads on when the node at its end is replaced by one of the name that
    is due to its path. -/
theorem Linked.leads_put (h : m.Linked) (hname : node.entry.name = Path.base path)
    {q c : Text} {child : Node} (hc : m.Leads q c child) :
    ∃ child, (m.put path node).Leads q c child := by
  obtain ⟨hget, hchild⟩ := hc
  by_cases hq : Path.join q c = path
  · refine ⟨node, by rw [get?_put_nodes, if_pos hq], ?_⟩
    rw [hname, ← hq, ← h.name hget, hchild]
  · exact ⟨child, by rw [get?_put_nodes, if_neg hq, hget], hchild⟩

theorem Linked.put (h : m.Linked) (hname : node.entry.name = Path.base path)
    (hleads : ∀ c ∈ node.children, ∃ child, m.Leads path c child) : (m.put path node).Linked where
  root_clean := h.root_clean
  name {q other} hget := by
    rw [get?_put_nodes] at hget
    split_ifs at hget with hq
    · rw [hq, ← Option.some.inj hget, hname]
    · exact h.name hget
  leads {q other} hget c hc := by
    have hbefore : ∃ child, m.Leads q c child := by
      rw [get?_put_nodes] at hget
      split_ifs at hget with hq
      · rw [← Option.some.inj hget] at hc
        exact hq ▸ hleads c hc
      · exact h.leads hget c hc
    obtain ⟨child, hchild⟩ := hbefore
    exact h.leads_put hname hchild

/-- A path that is made an entry of its parent is reached from there by its
    base. -/
theorem Linked.link (h : m.Linked) (hpath : Path.clean path = path)
    (hget : m.nodes.get? path = some node) : (m.link path).Linked := by
  unfold Memory.link
  dsimp only
  split_ifs with hroot
  · exact h
  split
  · next dir hdir =>
    have hname : dir.entry.name = Path.base (Path.parent path) := h.name hdir
    refine h.put hname fun c hc => ?_
    rcases List.mem_append.1 hc with hc | hc
    · exact h.leads hdir c hc
    · rw [List.mem_singleton.1 hc]
      exact ⟨node, by rw [Path.join_parent_base hpath hroot, hget], h.name hget⟩
  · exact h

/-! ### Changes -/

/-- A tree stays linked when a node without children is put at a path and made an
    entry of its parent. -/
theorem Linked.put_link (h : m.Linked) (hpath : Path.clean path = path)
    (hname : node.entry.name = Path.base path) (hchildren : node.children = []) :
    ((m.put path node).link path).Linked :=
  (h.put hname (by simp [hchildren])).link hpath
    (by rw [get?_put_nodes, if_pos rfl])

theorem clean_of_mem_missing {steps : Nat} {dir : Text} (h : dir ∈ m.missing steps path) :
    Path.clean dir = dir := by
  induction steps generalizing path with
  | zero => exact absurd h List.not_mem_nil
  | succ steps ih =>
    rw [missing] at h
    split_ifs at h with hdone
    · exact absurd h List.not_mem_nil
    · rcases List.mem_cons.1 h with rfl | h
      · exact Path.clean_parent path
      · exact ih h

theorem Linked.makeParents (h : m.Linked) (path : Text) : (m.makeParents path).Linked := by
  have hclean : ∀ dir ∈ m.missing (path.length + 1) path, Path.clean dir = dir :=
    fun _ hdir => clean_of_mem_missing hdir
  unfold Memory.makeParents
  -- The induction is on the ancestors alone: they were missing before any was made.
  generalize m.missing (path.length + 1) path = dirs at hclean
  induction dirs with
  | nil => exact h
  | cons dir dirs ih =>
    rw [List.foldr_cons]
    exact (ih fun d hd => hclean d (List.mem_cons_of_mem _ hd)).put_link
      (hclean dir List.mem_cons_self) rfl rfl

theorem Linked.insert (h : m.Linked) (hpath : Path.clean path = path)
    (hname : node.entry.name = Path.base path) (hchildren : node.children = []) :
    (m.insert path node).Linked :=
  (h.makeParents path).put_link hpath hname hchildren

theorem Linked.clean_resolve (h : m.Linked) (p : Text) :
    Path.clean (m.resolve p) = m.resolve p := by
  unfold resolve
  split_ifs
  · exact h.root_clean
  all_goals exact Path.clean_clean _

theorem linked_empty (root : Text) : (empty root).Linked := by
  have hnode : ∀ {path node}, (empty root).nodes.get? path = some node →
      node = Node.directory path := by
    intro path node hget
    rw [empty, Table.get?_cons] at hget
    split_ifs at hget with hpath
    · rw [← Option.some.inj hget, hpath]
    · exact absurd hget (Option.some_ne_none node).symm
  refine ⟨Path.clean_clean root, fun hget => ?_, fun hget c hc => ?_⟩
  · rw [hnode hget]
    rfl
  · rw [hnode hget] at hc
    exact absurd hc List.not_mem_nil

/-- Every change leaves the tree linked. -/
theorem Linked.apply (h : m.Linked) (change : Change) : (m.apply change).Linked := by
  cases change with
  | file p content =>
    unfold Memory.apply addFile
    dsimp only
    split
    · -- What stands there keeps its children and gets the name that it has.
      next node hget => exact h.put rfl fun c hc => h.leads hget c hc
    · exact h.insert (h.clean_resolve p) rfl rfl
  | directory p =>
    unfold Memory.apply addDir
    dsimp only
    split
    · exact h
    · exact h.insert (h.clean_resolve p) rfl rfl
  | link p => exact h.insert (h.clean_resolve p) rfl rfl
  | failure p f => exact ⟨h.root_clean, h.name, h.leads⟩

theorem Linked.foldl_apply (h : m.Linked) (changes : List Change) :
    (changes.foldl Memory.apply m).Linked := by
  induction changes generalizing m with
  | nil => exact h
  | cons change changes ih => exact ih (h.apply change)

/-- Every tree that is built is linked. -/
theorem linked_build (root : Text) (changes : List Change) : (build root changes).Linked :=
  (linked_empty root).foldl_apply changes

/-! ### Listings -/

/-- What listing a path may give: the failure that is planted there, the failure
    that nothing or no directory stands there, or the entries of the nodes to
    which the names of the directory lead, one for each name. -/
inductive Listed (m : Memory) (p : Text) : Except Failure (List Entry) → Prop
  | planted {f : Failure} (hfail : m.failures.get? (m.resolve p) = some f) :
      Listed m p (.error (.context (text "failed to read directory: ") f []))
  | missing (hfail : m.failures.get? (m.resolve p) = none)
      (hget : m.nodes.get? (m.resolve p) = none) :
      Listed m p (.error
        (.context (text "directory not found: " ++ p ++ text ": ") (.cause .notExist) []))
  | notDirectory {node : Node} (hfail : m.failures.get? (m.resolve p) = none)
      (hget : m.nodes.get? (m.resolve p) = some node) (hkind : node.entry.kind ≠ .directory) :
      Listed m p (.error (.plain (text "path is not a directory: " ++ p)))
  | directory {node : Node} {held : List Node} (hfail : m.failures.get? (m.resolve p) = none)
      (hget : m.nodes.get? (m.resolve p) = some node) (hkind : node.entry.kind = .directory)
      (hheld : List.Forall₂ (m.Leads (m.resolve p)) node.children held) :
      Listed m p (.ok (held.map (·.entry)))

/-- Where every name leads to a node, no entry is wanting. -/
theorem exists_entries?_eq (hleads : ∀ c ∈ node.children, ∃ child, m.Leads path c child) :
    ∃ held, List.Forall₂ (m.Leads path) node.children held ∧
      m.entries? path node = some (held.map (·.entry)) := by
  unfold entries?
  generalize node.children = names at hleads
  induction names with
  | nil => exact ⟨[], .nil, rfl⟩
  | cons c more ih =>
    obtain ⟨child, hchild⟩ := hleads c List.mem_cons_self
    obtain ⟨held, hheld, hmore⟩ := ih fun d hd => hleads d (List.mem_cons_of_mem _ hd)
    exact ⟨child :: held, .cons hchild hheld, by simp [List.mapM_cons, hchild.1, hmore]⟩

theorem Linked.listed (h : m.Linked) (p : Text) : m.Listed p (m.list p) := by
  unfold list
  dsimp only
  split
  · next f hfail => exact .planted hfail
  · next hfail =>
    split
    · next hget => exact .missing hfail hget
    · next node hget =>
      split_ifs with hkind
      · obtain ⟨held, hheld, hentries⟩ := exists_entries?_eq (h.leads hget)
        rw [hentries]
        exact .directory hfail hget hkind hheld
      · exact .notDirectory hfail hget hkind

/-- In every tree that is built, whatever its root and the changes, each name
    that a node keeps leads to a node of that name; so listing a path gives a
    failure of that path or one entry for each name, and no name is without a
    node. -/
theorem children_lead_to_nodes (root : Text) (changes : List Change) :
    (∀ path node, (build root changes).nodes.get? path = some node → ∀ c ∈ node.children,
      ∃ child, (build root changes).nodes.get? (Path.join path c) = some child ∧
        child.entry.name = c) ∧
    ∀ p, (build root changes).Listed p ((build root changes).list p) :=
  ⟨fun _ _ hget => (linked_build root changes).leads hget, (linked_build root changes).listed⟩

/-- Changes below and above the root `..`: a link takes the place of a directory,
    so that the root keeps its name twice. -/
def sampleChanges : List Change :=
  [.file (text "a/./b.js") (text "x"), .link (text "a"), .file (text "../../c.js") (text "y")]

def sample : Memory := build (text "..") sampleChanges

/-- From the root `..` the name `..` leads to `../..`. -/
theorem children_lead_to_nodes_sample :
    (∃ node, sample.nodes.get? (text "..") = some node ∧
      node.children = [text "a", text "a", text ".."]) ∧
    (∃ child, sample.nodes.get? (text "../..") = some child ∧ child.entry.name = text "..") ∧
    sample.Listed (text "..") (sample.list (text "..")) := by
  obtain ⟨hnames, hlisted⟩ := children_lead_to_nodes (text "..") sampleChanges
  have hnode : ∃ node, sample.nodes.get? (text "..") = some node ∧
      node.children = [text "a", text "a", text ".."] := ⟨_, rfl, by decide +kernel⟩
  obtain ⟨node, hget, hchildren⟩ := hnode
  refine ⟨⟨node, hget, hchildren⟩, ?_, hlisted (text "..")⟩
  have hjoin : Path.join (text "..") (text "..") = text "../.." := by decide +kernel
  exact hjoin ▸ hnames (text "..") node hget (text "..") (by simp [hchildren])

end Memory

end ImportFinder
