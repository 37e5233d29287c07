import ImportFinder.Proofs.Tree.Growth
import ImportFinder.Proofs.Walk.Sequence

/-!
# Names that are listed once

Nothing in a directory of a tree in memory keeps a name from being there twice;
it is the changes that look before they add. Adding a file or a directory where
something stands leaves the names alone. Adding a link does not look: over
something else, its name is kept once more (`get?_parent_addLink`). No name is
taken away again (`Steps.kept`), so it is listed twice from then on, and a walk
passes the entry twice (`visited_twice`).

That is the only way. With an absolute root, every tree that is built is tidy
(`Memory.Tidy`): names are single components, and a name that is kept twice
belongs to a path at which a link was added over something. Its paths become
longer on the way down, so a walk ends wherever it starts (`Tidy.finite`).

* `Tidy.step`, `tidy_build`: every step leaves a tree tidy, so every tree that is
  built is;
* `Housed.step`, `Housed.count_of_relinked`: what stands is kept by the directory
  above it, and twice if a link was added over it;
* `listed_once_unless_relinked`: what is listed twice, and when nothing is listed
  or visited twice.
-/

namespace ImportFinder

/-- The keys of a table are bounded in length. -/
theorem Table.exists_length_le {α : Type} (t : Table α) :
    ∃ bound, ∀ key, (t.get? key).isSome = true → key.length ≤ bound := by
  induction t with
  | nil => exact ⟨0, fun key h => absurd h (by simp [get?])⟩
  | cons first more ih =>
    obtain ⟨k, v⟩ := first
    obtain ⟨bound, hbound⟩ := ih
    refine ⟨max k.length bound, fun key h => ?_⟩
    rw [get?_cons] at h
    split_ifs at h with hkey
    · exact hkey ▸ Nat.le_max_left _ _
    · exact (hbound key h).trans (Nat.le_max_right _ _)

namespace Memory

variable {m m' : Memory} {path : Text} {node : Node} {taken : Text → Prop}

/-! ### Tidy trees -/

/-- The paths of a tree are absolute, its names are single components, and a
    node keeps a name twice only if that leads to one of the paths `taken`. -/
structure Tidy (taken : Text → Prop) (m : Memory) : Prop extends m.Linked where
  root_absolute : Path.isAbsolute m.root = true
  clean : ∀ {path node}, m.nodes.get? path = some node → Path.clean path = path
  absolute : ∀ {path node}, m.nodes.get? path = some node → Path.isAbsolute path = true
  proper : ∀ {path node}, m.nodes.get? path = some node →
    ∀ c ∈ node.children, Path.IsComponent c
  once : ∀ {path node}, m.nodes.get? path = some node →
    ∀ c, 1 < node.children.count c → taken (Path.join path c)

/-- Where nothing stands there is no name for it. -/
theorem Linked.not_mem_children (h : m.Linked) (hpath : Path.clean path = path)
    (hne : Path.parent path ≠ path) (hget : m.nodes.get? path = none) {dir : Node}
    (hdir : m.nodes.get? (Path.parent path) = some dir) : Path.base path ∉ dir.children := by
  intro hmem
  obtain ⟨child, hchild, _⟩ := h.leads hdir _ hmem
  rw [Path.join_parent_base hpath hne, hget] at hchild
  exact absurd hchild (by simp)

/-- What stands in a tree after a node is attached: that node, or what stood
    there before, in the case of the parent with one name more. -/
theorem get?_attach_cases {q : Text} {other : Node}
    (hget : (m.attach path node).nodes.get? q = some other) :
    (q = path ∧ other = node) ∨ m.nodes.get? q = some other ∨
      Path.parent path ≠ path ∧ q = Path.parent path ∧ ∃ dir, m.nodes.get? q = some dir ∧
        other = { dir with children := dir.children ++ [Path.base path] } := by
  by_cases hroot : Path.parent path = path
  · rw [get?_attach_root hroot] at hget
    split_ifs at hget with hq
    · exact .inl ⟨hq, (Option.some.inj hget).symm⟩
    · exact .inr (.inl hget)
  · rw [get?_attach hroot] at hget
    split_ifs at hget with hq hparent
    · exact .inl ⟨hq, (Option.some.inj hget).symm⟩
    · obtain ⟨dir, hdir, hother⟩ := Option.map_eq_some_iff.1 hget
      exact .inr (.inr ⟨hroot, hparent, dir, hdir, hother.symm⟩)
    · exact .inr (.inl hget)

theorem Tidy.attach (h : m.Tidy taken) (hpath : Path.clean path = path)
    (habs : Path.isAbsolute path = true) (hname : node.entry.name = Path.base path)
    (hchildren : node.children = []) (hfree : m.nodes.get? path = none ∨ taken path) :
    (m.attach path node).Tidy taken where
  toLinked := h.toLinked.put_link hpath hname hchildren
  root_absolute := by rw [root_attach, h.root_absolute]
  clean hget := by
    rcases get?_attach_cases hget with ⟨rfl, _⟩ | hget | ⟨_, _, dir, hdir, _⟩
    exacts [hpath, h.clean hget, h.clean hdir]
  absolute hget := by
    rcases get?_attach_cases hget with ⟨rfl, _⟩ | hget | ⟨_, _, dir, hdir, _⟩
    exacts [habs, h.absolute hget, h.absolute hdir]
  proper {q other} hget c hc := by
    rcases get?_attach_cases hget with ⟨_, rfl⟩ | hget | ⟨hne, _, dir, hdir, rfl⟩
    · rw [hchildren] at hc
      exact absurd hc List.not_mem_nil
    · exact h.proper hget c hc
    · rcases List.mem_append.1 hc with hc | hc
      · exact h.proper hdir c hc
      · exact List.mem_singleton.1 hc ▸ Path.isComponent_base hpath habs hne
  once {q other} hget c hcount := by
    rcases get?_attach_cases hget with ⟨_, rfl⟩ | hget | ⟨hne, rfl, dir, hdir, rfl⟩
    · rw [hchildren] at hcount
      exact absurd hcount (by simp)
    · exact h.once hget c hcount
    · rw [List.count_append, List.count_singleton] at hcount
      by_cases hc : Path.base path = c
      · -- The name that is added: it is new, unless something stood there.
        subst hc
        rw [Path.join_parent_base hpath hne]
        refine hfree.resolve_left fun hfree => ?_
        rw [List.count_eq_zero.2 (h.not_mem_children hpath hne hfree hdir)] at hcount
        simp at hcount
      · exact h.once hdir c (by simpa [hc] using hcount)

theorem Tidy.replace (h : m.Tidy taken) (hget : m.nodes.get? path = some node) (entry : Entry)
    (content : Text) (hname : entry.name = Path.base path) :
    (m.put path { node with entry, content }).Tidy taken := by
  -- Children stay as they are, so what was known of them is known still.
  have hbefore : ∀ {q other}, (m.put path { node with entry, content }).nodes.get? q = some other →
      ∃ old, m.nodes.get? q = some old ∧ old.children = other.children := by
    intro q other hother
    rw [get?_put_nodes] at hother
    split_ifs at hother with hq
    · exact ⟨node, hq ▸ hget, Option.some.inj hother ▸ rfl⟩
    · exact ⟨other, hother, rfl⟩
  exact {
    toLinked := h.toLinked.put hname fun c hc => h.leads hget c hc
    root_absolute := h.root_absolute
    clean := fun hother => by
      obtain ⟨old, hold, _⟩ := hbefore hother
      exact h.clean hold
    absolute := fun hother => by
      obtain ⟨old, hold, _⟩ := hbefore hother
      exact h.absolute hold
    proper := fun hother => by
      obtain ⟨old, hold, hchildren⟩ := hbefore hother
      exact hchildren ▸ h.proper hold
    once := fun hother => by
      obtain ⟨old, hold, hchildren⟩ := hbefore hother
      exact hchildren ▸ h.once hold }

/-- Every step leaves a tree tidy. -/
theorem Tidy.step (h : m.Tidy taken) (hstep : Step taken m m') : m'.Tidy taken := by
  cases hstep with
  | replace entry content hget hname _ => exact h.replace hget entry content hname
  | attach hpath habs hname hchildren _ hfree =>
    exact h.attach hpath habs hname hchildren (hfree.imp_right And.left)
  | plant failures =>
    exact ⟨⟨h.root_clean, h.name, h.leads⟩, h.root_absolute, h.clean, h.absolute, h.proper, h.once⟩

theorem Tidy.steps (h : m.Tidy taken) (hsteps : Steps taken m m') : m'.Tidy taken := by
  induction hsteps with
  | refl => exact h
  | tail _ hstep ih => exact ih.step hstep

theorem tidy_empty {root : Text} (habs : Path.isAbsolute root = true) :
    (empty root).Tidy taken := by
  have hnode : ∀ {path node}, (empty root).nodes.get? path = some node →
      path = Path.clean root ∧ node.children = [] := by
    intro path node hget
    rw [empty, Table.get?_cons] at hget
    split_ifs at hget with hpath
    · exact ⟨hpath, Option.some.inj hget ▸ rfl⟩
    · exact absurd hget (Option.some_ne_none node).symm
  have hclean := Path.clean_clean root
  have habs' := (Path.isAbsolute_clean root).trans habs
  refine ⟨linked_empty root, habs', ?_, ?_, ?_, ?_⟩
  · exact fun hget => (hnode hget).1 ▸ hclean
  · exact fun hget => (hnode hget).1 ▸ habs'
  · intro path node hget c hc
    rw [(hnode hget).2] at hc
    exact absurd hc List.not_mem_nil
  · intro path node hget c hc
    rw [(hnode hget).2] at hc
    exact absurd hc (by simp)

/-- Every tree that is built on an absolute root is tidy. -/
theorem tidy_build {root : Text} (habs : Path.isAbsolute root = true) (changes : List Change) :
    (build root changes).Tidy (· ∈ (empty root).relinked changes) :=
  (tidy_empty habs).steps (steps_build habs changes)

/-! ### Names that are kept -/

/-- Whatever stands in a tree, but for its root, has a parent, which keeps its name
    while it is a directory. -/
def Housed (m : Memory) : Prop :=
  ∀ q, (m.nodes.get? q).isSome = true → q ≠ m.root → Path.parent q ≠ q →
    ∃ dir, m.nodes.get? (Path.parent q) = some dir ∧
      (dir.entry.kind = .directory → Path.base q ∈ dir.children)

theorem housed_empty (root : Text) : (empty root).Housed := by
  intro q hsome hroot
  have hother : q ≠ Path.clean root := hroot
  rw [empty, Table.get?_cons, if_neg hother, Table.get?, List.lookup_nil] at hsome
  exact absurd hsome (by decide)

theorem Housed.step (h : m.Housed) (hstep : Step taken m m') : m'.Housed := by
  intro q hsome hroot hne
  rw [Steps.root_eq (.single hstep)] at hroot
  by_cases hold : (m.nodes.get? q).isSome = true
  · -- No name is taken away.
    obtain ⟨dir, hdir, hmem⟩ := h q hold hroot hne
    obtain ⟨dir', hdir', hkept⟩ := hstep.kept hdir
    exact ⟨dir', hdir', fun hkind => (hkept hkind).2.subset (hmem (hkept hkind).1)⟩
  cases hstep with
  | @replace path node entry content hget =>
    rw [get?_put_nodes] at hsome
    split_ifs at hsome with hq
    · exact absurd (by rw [hq, hget]; rfl) hold
    · exact absurd hsome hold
  | plant => exact absurd hsome hold
  | @attach path node _ _ _ _ hparent =>
    have hq : q = path := by
      by_contra hq
      by_cases hqp : Path.parent path = path
      · rw [get?_attach_root hqp, if_neg hq] at hsome
        exact hold hsome
      · rw [get?_attach hqp, if_neg hq] at hsome
        split_ifs at hsome <;> exact hold (by simpa using hsome)
    subst hq
    obtain ⟨dir, hdir⟩ := Option.isSome_iff_exists.1 (hparent.resolve_left hne)
    rw [get?_attach hne, if_neg hne, if_pos rfl, hdir]
    exact ⟨_, rfl, fun _ => List.mem_append_right _ (List.mem_singleton_self _)⟩

theorem Housed.steps (h : m.Housed) (hsteps : Steps taken m m') : m'.Housed := by
  induction hsteps with
  | refl => exact h
  | tail _ hstep ih => exact ih.step hstep

/-- A link that is added gives its parent one name more, whether or not it has
    that name already. -/
theorem get?_parent_addLink {p : Text} {dir : Node}
    (hne : Path.parent (m.resolve p) ≠ m.resolve p)
    (hdir : m.nodes.get? (Path.parent (m.resolve p)) = some dir) :
    (m.addLink p).nodes.get? (Path.parent (m.resolve p)) =
      some { dir with children := dir.children ++ [Path.base (m.resolve p)] } := by
  have hmade : m.makeParents (m.resolve p) = m :=
    makeParents_of_stop (.inr (by rw [hdir]; rfl))
  rw [addLink, insert_eq, hmade, get?_attach hne, if_neg hne, if_pos rfl, hdir]
  rfl

theorem Housed.count_of_covered (h : m.Housed) {change : Change} {q : Text}
    (hq : q ∈ m.covered change) (hroot : q ≠ m.root) (hne : Path.parent q ≠ q) :
    ∃ dir, (m.apply change).nodes.get? (Path.parent q) = some dir ∧
      (dir.entry.kind = .directory → 1 < dir.children.count (Path.base q)) := by
  cases change with
  | link p =>
    rw [covered] at hq
    split_ifs at hq with hsome
    · obtain rfl := List.mem_singleton.1 hq
      obtain ⟨dir, hdir, hmem⟩ := h _ hsome hroot hne
      refine ⟨_, get?_parent_addLink hne hdir, fun hkind => ?_⟩
      have hpos := List.count_pos_iff.2 (hmem hkind)
      rw [List.count_append, List.count_singleton_self]
      omega
    · exact absurd hq List.not_mem_nil
  | _ => exact absurd hq List.not_mem_nil

/-- Where a link was added over something, the name is kept twice ever after,
    while its parent is a directory. -/
theorem Housed.count_of_relinked (h : m.Housed) (hclean : Path.clean m.root = m.root)
    (habs : Path.isAbsolute m.root = true) {changes : List Change} {q : Text}
    (hq : q ∈ m.relinked changes) (hroot : q ≠ m.root) (hne : Path.parent q ≠ q) :
    ∃ dir, (changes.foldl Memory.apply m).nodes.get? (Path.parent q) = some dir ∧
      (dir.entry.kind = .directory → 1 < dir.children.count (Path.base q)) := by
  induction changes generalizing m with
  | nil => exact absurd hq List.not_mem_nil
  | cons change changes ih =>
    have hfirst := steps_apply_covered hclean habs change
    have hclean' : Path.clean (m.apply change).root = (m.apply change).root := by
      rw [hfirst.root_eq, hclean]
    have habs' : Path.isAbsolute (m.apply change).root = true := by rw [hfirst.root_eq, habs]
    rcases List.mem_append.1 hq with hq | hq
    · obtain ⟨dir, hdir, hcount⟩ := h.count_of_covered hq hroot hne
      obtain ⟨dir', hdir', hkept⟩ := (steps_foldl_apply hclean' habs' changes).kept hdir
      refine ⟨dir', hdir', fun hkind => ?_⟩
      exact Nat.lt_of_lt_of_le (hcount (hkept hkind).1) ((hkept hkind).2.sublist.count_le _)
    · exact ih (h.steps hfirst) hclean' habs' hq (by rwa [hfirst.root_eq])

/-! ### Listings -/

theorem entries_of_leads {names : List Text} {held : List Node}
    (h : List.Forall₂ (m.Leads path) names held) :
    (held.map (·.entry)).map (·.name) = names ∧ ∀ e ∈ held.map (·.entry),
      ∃ child, m.nodes.get? (Path.join path e.name) = some child ∧ child.entry = e := by
  induction h with
  | nil => exact ⟨rfl, fun e he => absurd he List.not_mem_nil⟩
  | cons hchild _ ih =>
    refine ⟨by rw [List.map_cons, List.map_cons, hchild.2, ih.1], fun e he => ?_⟩
    rcases List.mem_cons.1 he with rfl | he
    · exact ⟨_, by rw [hchild.2, hchild.1], rfl⟩
    · exact ih.2 e he

/-- The entries that a path lists are those of the nodes to which the names of
    its directory lead. -/
theorem Linked.list_ok (h : m.Linked) {p : Text} {entries : List Entry}
    (hl : m.list p = .ok entries) : ∃ dir, m.nodes.get? (m.resolve p) = some dir ∧
      dir.entry.kind = .directory ∧ entries.map (·.name) = dir.children ∧
      ∀ e ∈ entries, ∃ child, m.nodes.get? (Path.join (m.resolve p) e.name) = some child ∧
        child.entry = e := by
  have hlisted := h.listed p
  rw [hl] at hlisted
  cases hlisted with
  | directory hfail hget hkind hheld => exact ⟨_, hget, hkind, entries_of_leads hheld⟩

theorem Tidy.resolve_eq (h : m.Tidy taken) (p : Text) : m.resolve p = Path.resolve m.root p :=
  Memory.resolve_eq h.root_clean h.root_absolute p

theorem Tidy.resolve_of_isAbsolute (h : m.Tidy taken) {p : Text}
    (hp : Path.isAbsolute p = true) : m.resolve p = Path.clean p := by
  rw [h.resolve_eq, Path.resolve, if_pos hp]

/-- What is listed below a path is found below the place for which it stands. -/
theorem Tidy.resolve_join (h : m.Tidy taken) {c : Text} (hc : Path.IsComponent c) (p : Text) :
    m.resolve (Path.join p c) = Path.join (m.resolve p) c := by
  rw [h.resolve_eq, h.resolve_eq, Path.resolve_join h.root_absolute hc]

theorem Tidy.isComponent (h : m.Tidy taken) {p : Text} {entries : List Entry}
    (hl : m.list p = .ok entries) {e : Entry} (he : e ∈ entries) : Path.IsComponent e.name := by
  obtain ⟨dir, hdir, _, hnames, _⟩ := h.list_ok hl
  exact h.proper hdir _ (hnames ▸ List.mem_map_of_mem he)

theorem Tidy.taken_of_listed_twice (h : m.Tidy taken) {p : Text} {entries : List Entry}
    (hl : m.list p = .ok entries) {name : Text} (hcount : 1 < (entries.map (·.name)).count name) :
    taken (Path.join (m.resolve p) name) := by
  obtain ⟨dir, hdir, _, hnames, _⟩ := h.list_ok hl
  exact h.once hdir name (hnames ▸ hcount)

/-- If there are no paths over which links are added, no directory lists a name
    twice. -/
theorem Tidy.wellNamed (h : m.Tidy taken) (htaken : ∀ path, ¬ taken path) : m.tree.WellNamed := by
  intro p entries hl
  refine ⟨List.nodup_iff_count_le_one.2 fun name => ?_, fun e he => h.isComponent hl he⟩
  by_contra hcount
  exact htaken _ (h.taken_of_listed_twice hl (Nat.lt_of_not_le hcount))

/-- A directory below another one stands for a longer path, at which there is a
    node. -/
theorem Tidy.below (h : m.Tidy taken) {dir sub : Text} (hsub : m.tree.Below sub dir) :
    (m.nodes.get? (m.resolve sub)).isSome = true ∧
      (m.resolve dir).length < (m.resolve sub).length := by
  obtain ⟨entries, hl, e, he, _, rfl⟩ := hsub
  have hc := h.isComponent hl he
  obtain ⟨node, hdir, _, _, hchildren⟩ := h.list_ok hl
  obtain ⟨child, hchild, _⟩ := hchildren e he
  rw [h.resolve_join hc]
  refine ⟨by rw [hchild]; rfl, ?_⟩
  have hparent : Path.parent (Path.join (m.resolve dir) e.name) = m.resolve dir := by
    rw [Path.parent_join hc, h.clean hdir]
  have hne : Path.parent (Path.join (m.resolve dir) e.name) ≠
      Path.join (m.resolve dir) e.name := by
    rw [Path.parent_join hc]
    exact (Path.join_ne_clean hc _).symm
  have hlt := Path.length_parent_lt (h.clean hchild) (h.absolute hchild) hne
  rwa [hparent] at hlt

/-- The walk from any path comes to an end: on the way down paths become longer,
    and there are only so many nodes. -/
theorem Tidy.finite (h : m.Tidy taken) (dir : Text) : m.tree.Finite dir := by
  obtain ⟨bound, hbound⟩ := m.nodes.exists_length_le
  induction hroom : bound + 1 - (m.resolve dir).length using Nat.strongRecOn generalizing dir with
  | _ room ih =>
    refine ⟨dir, fun sub hsub => ?_⟩
    obtain ⟨hget, hlt⟩ := h.below hsub
    have hle := hbound _ hget
    exact ih _ (by omega) sub rfl

/-! ### Walks -/

/-- Names lead to the place for which the path stands to which they lead. -/
theorem Tidy.components_resolve (h : m.Tidy taken) {names : List Text}
    (hn : ∀ n ∈ names, Path.IsComponent n) (p : Text) :
    Path.components (m.resolve (names.foldl Path.join p)) =
      Path.components (m.resolve p) ++ names := by
  induction names generalizing p with
  | nil => simp
  | cons n names ih =>
    have hc := hn n List.mem_cons_self
    rw [List.foldl_cons, ih fun k hk => hn k (List.mem_cons_of_mem _ hk), h.resolve_join hc,
      Path.components_join hc, List.append_assoc, List.singleton_append]

/-- No file is visited twice, not even by different paths, if no directory lists
    a name twice. -/
theorem Tidy.nodup_resolve_files (h : m.Tidy taken) (hn : m.tree.WellNamed) (ignore : IgnoreSet)
    (start : Text) :
    ((Walk.stats (Walk.descend m.tree ignore start)).files.map m.resolve).Nodup := by
  have hf := h.finite start
  have hfile : ∀ path ∈ (Walk.stats (Walk.descend m.tree ignore start)).files, ∃ names : List Text,
      (∀ n ∈ names, Path.IsComponent n) ∧ path = names.foldl Path.join start := by
    intro path hpath
    obtain ⟨name, hev⟩ := Walk.mem_files_iff_event.1 hpath
    obtain ⟨dirs, e, hr, _, _, _, rfl⟩ := Walk.reaches_of_file_mem hf hev
    exact ⟨_, hr.isComponent hn, rfl⟩
  have hpaths : ((Walk.stats (Walk.descend m.tree ignore start)).files).Nodup :=
    (Walk.nodup_paths hn hf).sublist (Walk.sublist_files_paths _)
  refine List.Nodup.map_on (fun a ha b hb hab => ?_) hpaths
  obtain ⟨ns, hns, rfl⟩ := hfile a ha
  obtain ⟨ks, hks, rfl⟩ := hfile b hb
  have hcomp := congrArg Path.components hab
  rw [h.components_resolve hns, h.components_resolve hks] at hcomp
  rw [List.append_cancel_left hcomp]

/-! ### What is listed twice -/

theorem listed_twice_of_relinked {root : Text} (habs : Path.isAbsolute root = true)
    {changes : List Change} {p : Text} {entries : List Entry}
    (hl : (build root changes).list p = .ok entries) {name : Text} (hn : Path.IsComponent name)
    (hmem : Path.join ((build root changes).resolve p) name ∈ (empty root).relinked changes)
    (hroot : Path.join ((build root changes).resolve p) name ≠ Path.clean root) :
    1 < (entries.map (·.name)).count name := by
  have htidy := tidy_build habs changes
  obtain ⟨dir, hdir, hkind, hnames, _⟩ := htidy.list_ok hl
  have hparent := Path.parent_join hn ((build root changes).resolve p)
  rw [htidy.clean hdir] at hparent
  have hne : Path.parent (Path.join ((build root changes).resolve p) name) ≠
      Path.join ((build root changes).resolve p) name := by
    rw [Path.parent_join hn]
    exact (Path.join_ne_clean hn _).symm
  obtain ⟨dir', hdir', hcount⟩ := (housed_empty root).count_of_relinked (Path.clean_clean root)
    ((Path.isAbsolute_clean root).trans habs) hmem hroot hne
  rw [hparent] at hdir'
  obtain rfl : dir = dir' := Option.some.inj (hdir.symm.trans hdir')
  rw [Path.base_join hn] at hcount
  rw [hnames]
  exact hcount hkind

/-- In a tree that is built on an absolute root, a name is listed twice only
    where a link was added over something, and always there, unless it was added
    over the root. If no link was added over anything, the names of every listing
    are distinct, and a walk ends, wherever it starts, without visiting a file
    twice. -/
theorem listed_once_unless_relinked {root : Text} (habs : Path.isAbsolute root = true)
    (changes : List Change) :
    (∀ p entries, (build root changes).list p = .ok entries → ∀ name,
      (1 < (entries.map (·.name)).count name →
        Path.join ((build root changes).resolve p) name ∈ (empty root).relinked changes) ∧
      (Path.IsComponent name →
        Path.join ((build root changes).resolve p) name ∈ (empty root).relinked changes →
        Path.join ((build root changes).resolve p) name ≠ Path.clean root →
        1 < (entries.map (·.name)).count name)) ∧
    ((empty root).relinked changes = [] →
      (∀ p entries, (build root changes).list p = .ok entries →
        (entries.map (·.name)).Nodup) ∧
      ∀ ignore start, ∃ n, ∀ steps, n ≤ steps → ∃ es,
        Walk.events (build root changes).tree ignore steps start = some es ∧
        ((Walk.stats es).files.map (build root changes).resolve).Nodup) := by
  have htidy := tidy_build habs changes
  refine ⟨fun p entries hl name => ⟨htidy.taken_of_listed_twice hl,
    fun hn => listed_twice_of_relinked habs hl hn⟩, fun hnone => ?_⟩
  have hn : (build root changes).tree.WellNamed :=
    htidy.wellNamed fun path => by simp [hnone]
  refine ⟨fun p entries hl => (hn p entries hl).1, fun ignore start => ?_⟩
  obtain ⟨n, hn'⟩ := Walk.exists_events_eq ignore (htidy.finite start)
  exact ⟨n, fun steps hle => ⟨_, hn' steps hle, htidy.nodup_resolve_files hn ignore start⟩⟩

/-- A file that is replaced, a directory that is there already, and a link where
    nothing stands. -/
def onceChanges : List Change :=
  [.file (text "lib/a.js") (text "old"), .link (text "lib/l"), .directory (text "lib"),
   .file (text "/p/lib/a.js") (text "new")]

theorem listed_once_unless_relinked_sample :
    (empty (text "/p")).relinked onceChanges = [] ∧
    ∃ entries, (build (text "/p") onceChanges).list (text "lib") = .ok entries ∧
      entries.map (·.name) = [text "a.js", text "l"] ∧ (entries.map (·.name)).Nodup := by
  have hnone : (empty (text "/p")).relinked onceChanges = [] := by decide +kernel
  have hlist : ∃ entries, (build (text "/p") onceChanges).list (text "lib") = .ok entries ∧
      entries.map (·.name) = [text "a.js", text "l"] := ⟨_, rfl, by decide +kernel⟩
  obtain ⟨entries, hl, hnames⟩ := hlist
  have habs : Path.isAbsolute (text "/p") = true := by decide
  exact ⟨hnone, entries, hl, hnames,
    ((listed_once_unless_relinked habs onceChanges).2 hnone).1 _ entries hl⟩

/-- A link over a file, and a file in its place again. -/
def twiceChanges : List Change :=
  [.file (text "a.js") (text "x"), .link (text "a.js"), .file (text "a.js") (text "y")]

/-- The file is listed and visited twice. -/
theorem visited_twice :
    (∃ entries, (build (text "/p") twiceChanges).list (text "/p") = .ok entries ∧
      entries.map (·.name) = [text "a.js", text "a.js"]) ∧
    ∃ es, Walk.events (build (text "/p") twiceChanges).tree (.ofList []) 3 (text "/p") = some es ∧
      (Walk.stats es).files = [text "/p/a.js", text "/p/a.js"] ∧
      (empty (text "/p")).relinked twiceChanges = [text "/p/a.js"] :=
  ⟨⟨_, rfl, by decide +kernel⟩, _, rfl, by decide +kernel, by decide +kernel⟩

end Memory

end ImportFinder
