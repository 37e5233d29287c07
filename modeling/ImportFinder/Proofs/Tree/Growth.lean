import ImportFinder.Proofs.Path.Absolute
import ImportFinder.Proofs.Tree.Linked
import Mathlib.Logic.Relation

/-!
# How a tree in memory grows

Whatever is added to a tree in memory, three things happen to it, one after the
other (`Memory.Step`): a node is replaced by one with the same children, a node
without children is attached at a path (`Memory.attach`), or the failures are
changed. A node is attached where nothing has stood, except at those paths where
a link is added over something else. So what holds of a tree through all changes
need only be shown for these three.

The missing ancestors of a path are attached one by one, and each is inserted
like anything else (`makeParents_of_missing`). This leaves everything alone that
is not shorter than the path (`get?_makeParents`).

* `steps_apply`: a change to a tree with an absolute root is a sequence of steps;
* `steps_build`: so is a tree that is built, and links take the place of
  something at no other paths than `Memory.relinked`.
-/

namespace ImportFinder.Memory

variable {m : Memory} {path : Text} {node : Node}

/-! ### Attaching a node -/

/-- The tree with a node put at a path and made an entry of its parent. -/
def attach (m : Memory) (path : Text) (node : Node) : Memory := (m.put path node).link path

theorem insert_eq (m : Memory) (path : Text) (node : Node) :
    m.insert path node = (m.makeParents path).attach path node := rfl

@[simp]
theorem root_attach : (m.attach path node).root = m.root := by
  unfold attach link
  dsimp only
  split_ifs
  · rfl
  · split <;> rfl

@[simp]
theorem failures_attach : (m.attach path node).failures = m.failures := by
  unfold attach link
  dsimp only
  split_ifs
  · rfl
  · split <;> rfl

/-- Inserting a node changes nothing but the nodes. -/
theorem root_failures_insert : (m.insert path node).root = m.root ∧
    (m.insert path node).failures = m.failures := by
  rw [insert_eq, root_attach, failures_attach, makeParents]
  induction m.missing (path.length + 1) path with
  | nil => exact ⟨rfl, rfl⟩
  | cons dir dirs ih => exact ⟨root_attach.trans ih.1, failures_attach.trans ih.2⟩

/-- Attaching a node changes what stands at its path and the names that its
    parent keeps, if there is a parent. -/
theorem get?_attach (hne : Path.parent path ≠ path) (q : Text) :
    (m.attach path node).nodes.get? q =
      if q = path then some node
      else if q = Path.parent path then (m.nodes.get? q).map fun dir =>
        { dir with children := dir.children ++ [Path.base path] }
      else m.nodes.get? q := by
  have hparent : (m.put path node).nodes.get? (Path.parent path) =
      m.nodes.get? (Path.parent path) := by
    rw [get?_put_nodes, if_neg hne]
  unfold attach link
  dsimp only
  rw [if_neg hne]
  split
  · next dir hdir =>
    rw [get?_put_nodes, get?_put_nodes]
    by_cases hq : q = Path.parent path
    · rw [if_pos hq, if_neg (hq ▸ hne), if_pos hq, hq, ← hparent, hdir]
      rfl
    · rw [if_neg hq, if_neg hq]
  · next hdir =>
    rw [get?_put_nodes]
    by_cases hq : q = Path.parent path
    · rw [if_neg (hq ▸ hne), if_neg (hq ▸ hne), if_pos hq, hq, ← hparent, hdir]
      rfl
    · rw [if_neg hq]

theorem get?_attach_root (hroot : Path.parent path = path) (q : Text) :
    (m.attach path node).nodes.get? q = if q = path then some node else m.nodes.get? q := by
  unfold attach link
  dsimp only
  rw [if_pos hroot, get?_put_nodes]

theorem get?_attach_self (m : Memory) (path : Text) (node : Node) :
    (m.attach path node).nodes.get? path = some node := by
  by_cases hroot : Path.parent path = path
  · rw [get?_attach_root hroot, if_pos rfl]
  · rw [get?_attach hroot, if_pos rfl]

theorem get?_attach_of_ne {q : Text} (hq : q ≠ path) (hparent : q ≠ Path.parent path) :
    (m.attach path node).nodes.get? q = m.nodes.get? q := by
  by_cases hroot : Path.parent path = path
  · rw [get?_attach_root hroot, if_neg hq]
  · rw [get?_attach hroot, if_neg hq, if_neg hparent]

/-! ### Ancestors -/

/-- The number of steps that are allowed for finding the missing ancestors of a
    path does not matter, if it exceeds the length of the path. -/
theorem missing_eq (hp : Path.clean path = path) (habs : Path.isAbsolute path = true) {steps : Nat}
    (hsteps : path.length < steps) :
    m.missing steps path = m.missing (path.length + 1) path := by
  induction path, hp, habs using Path.parent_induction generalizing steps with
  | step path hp habs ih =>
    obtain ⟨steps, rfl⟩ : ∃ k, steps = k + 1 := ⟨steps - 1, by omega⟩
    rw [missing, missing]
    split_ifs with hdone
    · rfl
    · -- The parent is shorter, so both numbers are enough for it.
      rw [not_or] at hdone
      have hlt := Path.length_parent_lt hp habs hdone.1
      have hsteps' : (Path.parent path).length < steps := by omega
      rw [ih hdone.1 hsteps', ih hdone.1 hlt]

theorem makeParents_of_stop
    (h : Path.parent path = path ∨ (m.nodes.get? (Path.parent path)).isSome = true) :
    m.makeParents path = m := by
  rw [makeParents, missing, if_pos h]
  rfl

/-- A missing parent is inserted like anything else. -/
theorem makeParents_of_missing (hp : Path.clean path = path)
    (habs : Path.isAbsolute path = true) (hne : Path.parent path ≠ path)
    (hget : m.nodes.get? (Path.parent path) = none) :
    m.makeParents path = m.insert (Path.parent path) (Node.directory (Path.parent path)) := by
  have hlt := Path.length_parent_lt hp habs hne
  have habs' := (Path.isAbsolute_parent hp).trans habs
  rw [makeParents, missing, if_neg (by simp [hne, hget]),
    missing_eq (Path.clean_parent path) habs' hlt]
  rfl

theorem isSome_parent_makeParents (hp : Path.clean path = path)
    (habs : Path.isAbsolute path = true) : Path.parent path = path ∨
      ((m.makeParents path).nodes.get? (Path.parent path)).isSome = true := by
  by_cases hstop : Path.parent path = path ∨ (m.nodes.get? (Path.parent path)).isSome = true
  · rwa [makeParents_of_stop hstop]
  · rw [not_or, Option.isSome_iff_ne_none, not_not] at hstop
    rw [makeParents_of_missing hp habs hstop.1 hstop.2, insert_eq, get?_attach_self]
    exact .inr rfl

/-- Making the ancestors of a path leaves alone what is not shorter than it. -/
theorem get?_makeParents (hp : Path.clean path = path) (habs : Path.isAbsolute path = true)
    {q : Text} (hq : path.length ≤ q.length) :
    (m.makeParents path).nodes.get? q = m.nodes.get? q := by
  induction path, hp, habs using Path.parent_induction with
  | step path hp habs ih =>
    by_cases hstop : Path.parent path = path ∨ (m.nodes.get? (Path.parent path)).isSome = true
    · rw [makeParents_of_stop hstop]
    rw [not_or, Option.isSome_iff_ne_none, not_not] at hstop
    have hlt := Path.length_parent_lt hp habs hstop.1
    -- The parent and its own parent are shorter than `q`.
    have hle := Path.length_parent_le (Path.clean_parent path)
      ((Path.isAbsolute_parent hp).trans habs)
    rw [makeParents_of_missing hp habs hstop.1 hstop.2, insert_eq, get?_attach_of_ne,
      ih hstop.1 (by omega)]
    · rintro rfl
      omega
    · rintro rfl
      omega

/-! ### Where paths lead -/

/-- In a tree with an absolute root, paths are taken from the root. -/
theorem resolve_eq (hclean : Path.clean m.root = m.root) (habs : Path.isAbsolute m.root = true)
    (p : Text) : m.resolve p = Path.resolve m.root p := by
  have hroot := Path.ne_nil_of_isAbsolute habs
  unfold resolve Path.resolve
  split_ifs with hhere hp hfront hp hp
  · rcases hhere with hnil | rfl
    · rw [List.isEmpty_iff.1 hnil] at hp
      exact absurd hp (by decide)
    · exact absurd hp (by decide)
  · -- The root itself, named by nothing or by a dot.
    have hcomp : Path.components (Path.join m.root p) = Path.components m.root := by
      rw [Path.components_join_relative hroot (Bool.eq_false_iff.2 hp)]
      rcases hhere with hnil | rfl
      · rw [List.isEmpty_iff.1 hnil]
        exact List.reverse_reverse _
      · exact List.reverse_reverse _
    refine Path.eq_of_components hclean ?_ ?_ hcomp.symm
    · rw [Path.join_of_ne_nil hroot, Path.clean_clean]
    · rw [habs, Path.isAbsolute_join_of_isAbsolute habs]
  · rfl
  · -- What starts with the root is absolute.
    refine absurd ?_ hp
    rcases hfront with rfl | hfront
    · exact habs
    · obtain ⟨rest, rfl⟩ := List.isPrefixOf_iff_prefix.1 hfront
      rw [List.append_assoc, Path.isAbsolute_append hroot, habs]
  · rfl
  · rw [Path.join_of_ne_nil hroot, Path.clean_clean]

/-! ### Steps -/

/-- One step in which a tree changes. Something may be attached where nothing
    has stood, and a link at the paths `taken`. -/
inductive Step (taken : Text → Prop) : Memory → Memory → Prop
  | replace {m : Memory} {path : Text} {node : Node} (entry : Entry) (content : Text)
      (hget : m.nodes.get? path = some node) (hname : entry.name = Path.base path)
      (hkind : entry.kind ≠ .directory) : Step taken m (m.put path { node with entry, content })
  | attach {m : Memory} {path : Text} {node : Node} (hpath : Path.clean path = path)
      (habs : Path.isAbsolute path = true) (hname : node.entry.name = Path.base path)
      (hchildren : node.children = [])
      (hparent : Path.parent path = path ∨ (m.nodes.get? (Path.parent path)).isSome = true)
      (hfree : m.nodes.get? path = none ∨ taken path ∧ node.entry.kind = .link) :
      Step taken m (m.attach path node)
  | plant {m : Memory} (failures : Table Failure) : Step taken m { m with failures }

/-- Any number of steps. -/
abbrev Steps (taken : Text → Prop) : Memory → Memory → Prop := Relation.ReflTransGen (Step taken)

variable {taken : Text → Prop} {m' : Memory}

theorem Steps.mono {more : Text → Prop} (h : Steps taken m m')
    (hmore : ∀ path, taken path → more path) : Steps more m m' := by
  refine Relation.ReflTransGen.mono (fun a b hstep => ?_) _ _ h
  cases hstep with
  | replace entry content hget hname hkind => exact .replace entry content hget hname hkind
  | attach hpath habs hname hchildren hparent hfree =>
    exact .attach hpath habs hname hchildren hparent (hfree.imp_right (And.imp_left (hmore _)))
  | plant failures => exact .plant failures

theorem Steps.root_eq (h : Steps taken m m') : m'.root = m.root := by
  induction h with
  | refl => rfl
  | tail _ hstep ih =>
    rw [← ih]
    cases hstep with
    | replace => rfl
    | attach => exact root_attach
    | plant => rfl

/-- No step takes anything away, and a directory, while it is one, keeps the names
    that it has. -/
theorem Step.kept (h : Step taken m m') {q : Text} (hget : m.nodes.get? q = some node) :
    ∃ node', m'.nodes.get? q = some node' ∧ (node'.entry.kind = .directory →
      node.entry.kind = .directory ∧ node.children <+: node'.children) := by
  cases h with
  | @replace path old entry content _ _ hkind =>
    rw [get?_put_nodes]
    by_cases hq : q = path
    · exact ⟨_, if_pos hq, fun hdir => absurd hdir hkind⟩
    · exact ⟨node, (if_neg hq).trans hget, fun hdir => ⟨hdir, List.prefix_rfl⟩⟩
  | @attach path added _ _ _ _ _ hfree =>
    by_cases hq : q = path
    · -- What has stood there is covered by a link.
      obtain ⟨_, hlink⟩ := hfree.resolve_left (by simp [← hq, hget])
      refine ⟨added, hq ▸ get?_attach_self _ _ _, fun hdir => ?_⟩
      exact absurd (hlink.symm.trans hdir) (by simp)
    by_cases hparent : q = Path.parent path
    · have hne : Path.parent path ≠ path := fun heq => hq (hparent.trans heq)
      rw [get?_attach hne, if_neg hq, if_pos hparent, hget]
      exact ⟨_, rfl, fun hdir => ⟨hdir, List.prefix_append _ _⟩⟩
    · rw [get?_attach_of_ne hq hparent]
      exact ⟨node, hget, fun hdir => ⟨hdir, List.prefix_rfl⟩⟩
  | plant => exact ⟨node, hget, fun hdir => ⟨hdir, List.prefix_rfl⟩⟩

theorem Steps.kept (h : Steps taken m m') {q : Text} (hget : m.nodes.get? q = some node) :
    ∃ node', m'.nodes.get? q = some node' ∧ (node'.entry.kind = .directory →
      node.entry.kind = .directory ∧ node.children <+: node'.children) := by
  induction h with
  | refl => exact ⟨node, hget, fun hdir => ⟨hdir, List.prefix_rfl⟩⟩
  | tail _ hstep ih =>
    obtain ⟨mid, hmid, hkept⟩ := ih
    obtain ⟨node', hget', hkept'⟩ := hstep.kept hmid
    refine ⟨node', hget', fun hdir => ?_⟩
    obtain ⟨hdir, hmore⟩ := hkept' hdir
    exact ⟨(hkept hdir).1, (hkept hdir).2.trans hmore⟩

theorem steps_makeParents (hp : Path.clean path = path) (habs : Path.isAbsolute path = true) :
    Steps taken m (m.makeParents path) := by
  induction path, hp, habs using Path.parent_induction with
  | step path hp habs ih =>
    by_cases hstop : Path.parent path = path ∨ (m.nodes.get? (Path.parent path)).isSome = true
    · rw [makeParents_of_stop hstop]
    rw [not_or, Option.isSome_iff_ne_none, not_not] at hstop
    have habs' := (Path.isAbsolute_parent hp).trans habs
    rw [makeParents_of_missing hp habs hstop.1 hstop.2, insert_eq]
    refine (ih hstop.1).tail (.attach (Path.clean_parent path) habs' rfl rfl
      (isSome_parent_makeParents (Path.clean_parent path) habs') (.inl ?_))
    -- The parent is still missing when its own ancestors have been made.
    rw [get?_makeParents (Path.clean_parent path) habs' (Nat.le_refl _), hstop.2]

theorem steps_insert (hp : Path.clean path = path) (habs : Path.isAbsolute path = true)
    (hname : node.entry.name = Path.base path) (hchildren : node.children = [])
    (hfree : m.nodes.get? path = none ∨ taken path ∧ node.entry.kind = .link) :
    Steps taken m (m.insert path node) := by
  rw [insert_eq]
  refine (steps_makeParents hp habs).tail
    (.attach hp habs hname hchildren (isSome_parent_makeParents hp habs) ?_)
  rwa [get?_makeParents hp habs (Nat.le_refl _)]

/-- A change is a sequence of steps, in which a link takes the place of something
    only if that stands where the link is added. -/
theorem steps_apply (hclean : Path.clean m.root = m.root) (habs : Path.isAbsolute m.root = true)
    (change : Change) (htaken : ∀ p, change = .link p →
      (m.nodes.get? (m.resolve p)).isSome = true → taken (m.resolve p)) :
    Steps taken m (m.apply change) := by
  have hpath : ∀ p, Path.clean (m.resolve p) = m.resolve p := fun p => by
    rw [resolve_eq hclean habs, Path.clean_resolve habs]
  have habs' : ∀ p, Path.isAbsolute (m.resolve p) = true := fun p => by
    rw [resolve_eq hclean habs, Path.isAbsolute_resolve habs]
  cases change with
  | file p content =>
    unfold Memory.apply addFile
    dsimp only
    split
    · next node hget => exact .single (.replace _ _ hget rfl (by simp [Node.file]))
    · next hget => exact steps_insert (hpath p) (habs' p) rfl rfl (.inl hget)
  | directory p =>
    unfold Memory.apply addDir
    dsimp only
    split
    · exact .refl
    · next hget => exact steps_insert (hpath p) (habs' p) rfl rfl (.inl hget)
  | link p =>
    refine steps_insert (hpath p) (habs' p) rfl rfl ?_
    cases hget : m.nodes.get? (m.resolve p) with
    | none => exact .inl rfl
    | some node => exact .inr ⟨htaken p rfl (by rw [hget]; rfl), rfl⟩
  | failure p f => exact .single (.plant _)

/-! ### Built trees -/

/-- The paths at which a change adds a link over something. -/
def covered (m : Memory) : Change → List Text
  | .link p => if (m.nodes.get? (m.resolve p)).isSome then [m.resolve p] else []
  | _ => []

/-- The paths at which links are added over something by changes, one after the
    other. -/
def relinked : Memory → List Change → List Text
  | _, [] => []
  | m, change :: changes => m.covered change ++ (m.apply change).relinked changes

theorem steps_apply_covered (hclean : Path.clean m.root = m.root)
    (habs : Path.isAbsolute m.root = true) (change : Change) :
    Steps (· ∈ m.covered change) m (m.apply change) := by
  refine steps_apply hclean habs change ?_
  rintro p rfl hget
  rw [covered, if_pos hget]
  exact List.mem_singleton_self _

/-- A tree with an absolute root changes in steps, in which links take the place
    of something at no other paths than those where they are added over it. -/
theorem steps_foldl_apply (hclean : Path.clean m.root = m.root)
    (habs : Path.isAbsolute m.root = true) (changes : List Change) :
    Steps (· ∈ m.relinked changes) m (changes.foldl apply m) := by
  induction changes generalizing m with
  | nil => exact .refl
  | cons change changes ih =>
    have hfirst := steps_apply_covered hclean habs change
    have hroot := hfirst.root_eq
    have hrest : Steps (· ∈ (m.apply change).relinked changes) (m.apply change)
        (changes.foldl apply (m.apply change)) := ih (by rw [hroot, hclean]) (by rw [hroot, habs])
    exact (hfirst.mono fun _ => List.mem_append_left _).trans
      (hrest.mono fun _ => List.mem_append_right _)

theorem steps_build {root : Text} (habs : Path.isAbsolute root = true) (changes : List Change) :
    Steps (· ∈ (empty root).relinked changes) (empty root) (build root changes) :=
  steps_foldl_apply (Path.clean_clean root) ((Path.isAbsolute_clean root).trans habs) changes

end ImportFinder.Memory
