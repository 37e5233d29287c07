import ImportFinder.Proofs.Tree.Traversal

/-!
# Adding one file

A file that is added to a tree in memory may need parents, which are made and
entered in each other's lists, up to a place where something stands already. All
the same the change is local. Besides the path itself, the one thing that changes
among what stood before is the place at which the making of parents stops, the
nearest one above the path (`Memory.Nearest`). It gets one name more, the one by
which the path goes on.

* `nearest_iff_of_standing`, `nearest_iff_of_missing`: the nearest place above a
  path is its parent, or the nearest place above its parent;
* `Tidy.get?_insert_cases`: what inserting a node does to a node that stands;
* `Linked.lists_iff`: the names that a path lists are those that its directory
  keeps;
* `addFile_local`: what is changed by a file that is added, and that nothing else
  is, whatever the spelling of the paths.
-/

namespace ImportFinder.Memory

variable {m m' : Memory} {path q p content : Text} {node old : Node} {taken : Text → Prop}

/-! ### What stands -/

/-- Something stands at a path. -/
def Stands (m : Memory) (p : Text) : Prop := ∃ e, m.stat p = .ok e

theorem stat_of_get? (hget : m.nodes.get? (m.resolve q) = some node) :
    m.stat q = .ok node.entry := by
  rw [stat, hget]

theorem stands_iff : m.Stands q ↔ ∃ node, m.nodes.get? (m.resolve q) = some node := by
  constructor
  · rintro ⟨e, hstat⟩
    unfold stat at hstat
    split at hstat
    · next node hget => exact ⟨node, hget⟩
    · exact absurd hstat (by simp)
  · rintro ⟨node, hget⟩
    exact ⟨_, stat_of_get? hget⟩

theorem Tidy.stands_iff_of_clean (h : m.Tidy taken) (hq : Path.clean q = q)
    (habs : Path.isAbsolute q = true) : m.Stands q ↔ (m.nodes.get? q).isSome = true := by
  rw [stands_iff, h.resolve_of_isAbsolute habs, hq, Option.isSome_iff_exists]

theorem Tidy.isAbsolute_resolve (h : m.Tidy taken) (p : Text) :
    Path.isAbsolute (m.resolve p) = true := by
  rw [h.resolve_eq, Path.isAbsolute_resolve h.root_absolute]

/-! ### The nearest place above a path -/

/-- The nearest place above a path at which something stands. -/
structure Nearest (m : Memory) (path q : Text) : Prop where
  clean : Path.clean q = q
  absolute : Path.isAbsolute q = true
  above : Path.Below path q
  standing : m.Stands q
  between : ∀ {p}, Path.clean p = p → Path.isAbsolute p = true → Path.Below path p →
    Path.Below p q → ¬ m.Stands p

/-- What lies above a path is its parent or lies above its parent. -/
theorem below_iff_parent (hp : Path.clean path = path) (habs : Path.isAbsolute path = true)
    (hne : Path.parent path ≠ path) (hq : Path.clean q = q) (hqabs : Path.isAbsolute q = true) :
    Path.Below path q ↔ q = Path.parent path ∨ Path.Below (Path.parent path) q := by
  have hcomp := Path.components_eq_concat hp habs hne
  have habs' := (Path.isAbsolute_parent hp).trans habs
  have heq : Path.components q = Path.components (Path.parent path) ↔ q = Path.parent path :=
    ⟨Path.eq_of_components hq (Path.clean_parent path) (hqabs.trans habs'.symm),
      congrArg Path.components⟩
  have hunder : Path.Below path q ↔
      Path.components q <+: Path.components (Path.parent path) := by
    rw [Path.Below, hcomp, List.prefix_concat_iff]
    constructor
    · rintro ⟨hfull | hunder, hother⟩
      · exact absurd hfull hother
      · exact hunder
    · intro hunder
      refine ⟨.inr hunder, fun hfull => ?_⟩
      have hle := hunder.length_le
      rw [hfull, List.length_append, List.length_singleton] at hle
      omega
  rw [hunder, Path.Below, ← heq]
  constructor
  · intro h
    by_cases hsame : Path.components q = Path.components (Path.parent path)
    · exact .inl hsame
    · exact .inr ⟨h, hsame⟩
  · rintro (hsame | ⟨h, _⟩)
    · rw [hsame]
    · exact h

theorem not_below_root (hp : Path.clean path = path) (hroot : Path.parent path = path) :
    ¬ Path.Below path q := by
  rintro ⟨hunder, hne⟩
  rw [Path.components_eq_nil hp hroot, List.prefix_nil] at hunder
  exact hne (hunder.trans (Path.components_eq_nil hp hroot).symm)

/-- If something stands at the parent of a path, that is the nearest place. -/
theorem nearest_iff_of_standing (hp : Path.clean path = path)
    (habs : Path.isAbsolute path = true) (hne : Path.parent path ≠ path)
    (hparent : m.Stands (Path.parent path)) : m.Nearest path q ↔ q = Path.parent path := by
  have hclean' := Path.clean_parent path
  have habs' := (Path.isAbsolute_parent hp).trans habs
  constructor
  · intro h
    refine ((below_iff_parent hp habs hne h.clean h.absolute).1 h.above).resolve_right fun hq => ?_
    have habove := (below_iff_parent hp habs hne hclean' habs').2 (.inl rfl)
    exact h.between hclean' habs' habove hq hparent
  · rintro rfl
    refine ⟨hclean', habs', (below_iff_parent hp habs hne hclean' habs').2 (.inl rfl), hparent,
      fun hpc hpabs habove hbelow => ?_⟩
    -- Nothing lies between a path and its parent.
    rcases (below_iff_parent hp habs hne hpc hpabs).1 habove with rfl | hover
    · exact absurd rfl hbelow.2
    · exact absurd (hbelow.1.eq_of_length_le hover.1.length_le) hbelow.2

/-- If nothing stands there, it is the nearest place above the parent. -/
theorem nearest_iff_of_missing (hp : Path.clean path = path)
    (habs : Path.isAbsolute path = true) (hne : Path.parent path ≠ path)
    (hparent : ¬ m.Stands (Path.parent path)) :
    m.Nearest path q ↔ m.Nearest (Path.parent path) q := by
  constructor
  · intro h
    refine ⟨h.clean, h.absolute, ?_, h.standing, fun hpc hpabs habove hbelow => ?_⟩
    · refine ((below_iff_parent hp habs hne h.clean h.absolute).1 h.above).resolve_left ?_
      rintro rfl
      exact hparent h.standing
    · exact h.between hpc hpabs ((below_iff_parent hp habs hne hpc hpabs).2 (.inr habove)) hbelow
  · intro h
    refine ⟨h.clean, h.absolute,
      (below_iff_parent hp habs hne h.clean h.absolute).2 (.inr h.above), h.standing,
      fun hpc hpabs habove hbelow => ?_⟩
    rcases (below_iff_parent hp habs hne hpc hpabs).1 habove with rfl | hover
    · exact hparent
    · exact h.between hpc hpabs hover hbelow

/-! ### Inserting a node -/

/-- A node that stands is left alone when another one is inserted, unless it is
    the nearest one above: that gets the next name. -/
theorem Tidy.get?_insert_cases (h : m.Tidy taken) (hp : Path.clean path = path)
    (habs : Path.isAbsolute path = true) (hget : m.nodes.get? q = some old)
    (hq : q ≠ path) :
    (m.Nearest path q ∧ ∃ n, Path.next? (Path.components q) (Path.components path) = some n ∧
      (m.insert path node).nodes.get? q = some (withChild old n)) ∨
    (¬ m.Nearest path q ∧ (m.insert path node).nodes.get? q = some old) := by
  induction path, hp, habs using Path.parent_induction generalizing node with
  | step path hp habs ih =>
    by_cases hroot : Path.parent path = path
    · refine .inr ⟨fun hnearest => not_below_root hp hroot hnearest.above, ?_⟩
      rw [insert_eq, makeParents_of_stop (.inl hroot), get?_attach_root hroot, if_neg hq, hget]
    have hcomp := Path.components_eq_concat hp habs hroot
    have hstands := h.stands_iff_of_clean (Path.clean_parent path)
      ((Path.isAbsolute_parent hp).trans habs)
    by_cases hsome : (m.nodes.get? (Path.parent path)).isSome = true
    · -- The node is attached, and its parent is the nearest place.
      rw [nearest_iff_of_standing hp habs hroot (hstands.2 hsome), insert_eq,
        makeParents_of_stop (.inr hsome), get?_attach hroot, if_neg hq]
      by_cases hparent : q = Path.parent path
      · refine .inl ⟨hparent, Path.base path, ?_, ?_⟩
        · rw [Path.next?_eq_some_iff, hparent, ← hcomp]
        · rw [if_pos hparent, hget]
          rfl
      · exact .inr ⟨hparent, by rw [if_neg hparent, hget]⟩
    · -- The parent is inserted first. It is not `q`, as nothing stands there.
      have hnone : m.nodes.get? (Path.parent path) = none := by simpa using hsome
      have hparent : q ≠ Path.parent path := by
        rintro rfl
        exact absurd (hget.symm.trans hnone) (by simp)
      rw [nearest_iff_of_missing hp habs hroot (mt hstands.1 hsome), insert_eq,
        makeParents_of_missing hp habs hroot hnone, get?_attach hroot, if_neg hq, if_neg hparent]
      rcases @ih hroot (Node.directory (Path.parent path)) hparent with
        ⟨hnearest, n, hnext, hnode⟩ | hkept
      · have hcne : Path.components q ≠ Path.components (Path.parent path) := fun heq =>
          hnearest.above.2 heq
        exact .inl ⟨hnearest, n, by rw [hcomp, Path.next?_concat_of_ne hcne, hnext], hnode⟩
      · exact .inr hkept

/-! ### Adding a file -/

theorem root_failures_addFile : (m.addFile p content).root = m.root ∧
    (m.addFile p content).failures = m.failures := by
  unfold addFile
  dsimp only
  split
  · exact ⟨rfl, rfl⟩
  · exact root_failures_insert

/-- Where a path leads depends on the root alone. -/
theorem resolve_congr (h : m'.root = m.root) (q : Text) : m'.resolve q = m.resolve q := by
  unfold resolve
  rw [h]

theorem resolve_addFile (m : Memory) (p content q : Text) :
    (m.addFile p content).resolve q = m.resolve q :=
  resolve_congr root_failures_addFile.1 q

/-- A path meets the failure that it met before. -/
theorem planted_addFile (m : Memory) (p content q : Text) :
    (m.addFile p content).failures.get? ((m.addFile p content).resolve q) =
      m.failures.get? (m.resolve q) := by
  rw [resolve_addFile, root_failures_addFile.2]

theorem get?_addFile_self (m : Memory) (p content : Text) :
    ∃ node, (m.addFile p content).nodes.get? (m.resolve p) = some node ∧
      node.entry = (Node.file (m.resolve p) content).entry ∧ node.content = content := by
  unfold addFile
  dsimp only
  split
  · exact ⟨_, (get?_put_nodes _ _ _ _).trans (if_pos rfl), rfl, rfl⟩
  · rw [insert_eq]
    exact ⟨_, get?_attach_self _ _ _, rfl, rfl⟩

/-- A node elsewhere is left alone when a file is added, unless the file is new
    and the node is the nearest one above it: that gets the next name. -/
theorem Tidy.get?_addFile_cases (h : m.Tidy taken) (content : Text)
    (hget : m.nodes.get? q = some old) (hq : q ≠ m.resolve p) :
    (m.nodes.get? (m.resolve p) = none ∧ m.Nearest (m.resolve p) q ∧
      ∃ n, Path.next? (Path.components q) (Path.components (m.resolve p)) = some n ∧
        (m.addFile p content).nodes.get? q = some (withChild old n)) ∨
    (¬ (m.nodes.get? (m.resolve p) = none ∧ m.Nearest (m.resolve p) q) ∧
      (m.addFile p content).nodes.get? q = some old) := by
  unfold addFile
  dsimp only
  split
  · next node hnode =>
    refine .inr ⟨fun hnew => absurd (hnode.symm.trans hnew.1) (by simp), ?_⟩
    rw [get?_put_nodes, if_neg hq, hget]
  · next hnone =>
    rcases h.get?_insert_cases (h.clean_resolve p) (h.isAbsolute_resolve p) hget hq with
      hnearest | hkept
    · exact .inl ⟨hnone, hnearest⟩
    · exact .inr ⟨fun hnew => hkept.1 hnew.2, hkept.2⟩

/-- A node elsewhere keeps its entry and its content. -/
theorem Tidy.exists_get?_addFile (h : m.Tidy taken) (content : Text)
    (hget : m.nodes.get? q = some old) (hq : q ≠ m.resolve p) :
    ∃ node, (m.addFile p content).nodes.get? q = some node ∧ node.entry = old.entry ∧
      node.content = old.content := by
  rcases h.get?_addFile_cases content hget hq with ⟨_, _, n, _, hnode⟩ | ⟨_, hnode⟩
  · exact ⟨_, hnode, rfl, rfl⟩
  · exact ⟨_, hnode, rfl, rfl⟩

/-! ### What is told of a tree -/

theorem read_of_planted {f : Failure} (hfail : m.failures.get? (m.resolve q) = some f) :
    m.read q = .error f := by
  rw [read, hfail]

/-- What is read depends on the entry and the content of the node, where no failure
    is planted. -/
theorem read_of_get? (hfail : m.failures.get? (m.resolve q) = none)
    (hget : m.nodes.get? (m.resolve q) = some node) :
    m.read q = if node.entry.kind = .directory then
        .error (.plain (text "path is a directory, not a file: " ++ q))
      else .ok node.content := by
  rw [read, hfail, hget]

/-- A path lists names. -/
def Lists (m : Memory) (p : Text) (names : List Text) : Prop :=
  ∃ entries, m.list p = .ok entries ∧ entries.map (·.name) = names

theorem Linked.lists_iff (h : m.Linked) {names : List Text} :
    m.Lists p names ↔ m.failures.get? (m.resolve p) = none ∧
      ∃ dir, m.nodes.get? (m.resolve p) = some dir ∧ dir.entry.kind = .directory ∧
        dir.children = names := by
  constructor
  · rintro ⟨entries, hl, rfl⟩
    obtain ⟨dir, hdir, hkind, hnames, _⟩ := h.list_ok hl
    have hlisted := h.listed p
    rw [hl] at hlisted
    cases hlisted with
    | directory hfail => exact ⟨hfail, dir, hdir, hkind, hnames.symm⟩
  · rintro ⟨hfail, dir, hdir, hkind, rfl⟩
    obtain ⟨entries, hl⟩ := h.exists_list_ok hfail hdir hkind
    obtain ⟨dir', hdir', _, hnames, _⟩ := h.list_ok hl
    obtain rfl := Option.some.inj (hdir.symm.trans hdir')
    exact ⟨entries, hl, hnames⟩

/-! ### Failures that are planted -/

theorem root_apply (m : Memory) (change : Change) : (m.apply change).root = m.root := by
  cases change with
  | file => exact root_failures_addFile.1
  | directory p =>
    unfold Memory.apply addDir
    dsimp only
    split
    · rfl
    · exact root_failures_insert.1
  | link => exact root_failures_insert.1
  | failure => rfl

/-- A change plants a failure at a path, or there is none but what was there. -/
theorem get?_failures_apply (m : Memory) (change : Change) (path : Text) :
    (m.apply change).failures.get? path = none ↔
      m.failures.get? path = none ∧ ∀ q f, change = .failure q f → m.resolve q ≠ path := by
  have hother : (m.apply change).failures = m.failures → (∀ q f, change ≠ .failure q f) →
      ((m.apply change).failures.get? path = none ↔
        m.failures.get? path = none ∧ ∀ q f, change = .failure q f → m.resolve q ≠ path) := by
    intro hfailures hchange
    rw [hfailures, and_iff_left fun q f heq => absurd heq (hchange q f)]
  cases change with
  | file => exact hother root_failures_addFile.2 fun _ _ => Change.noConfusion
  | directory p =>
    refine hother ?_ fun _ _ => Change.noConfusion
    unfold Memory.apply addDir
    dsimp only
    split
    · rfl
    · exact root_failures_insert.2
  | link => exact hother root_failures_insert.2 fun _ _ => Change.noConfusion
  | failure p f =>
    have hput : (m.apply (.failure p f)).failures.get? path =
        if path = m.resolve p then some f else m.failures.get? path :=
      Table.get?_put m.failures (m.resolve p) f path
    rw [hput]
    by_cases hpath : path = m.resolve p
    · rw [if_pos hpath]
      exact ⟨fun h => absurd h (by simp), fun h => absurd hpath.symm (h.2 p f rfl)⟩
    · rw [if_neg hpath]
      refine (and_iff_left ?_).symm
      rintro q g heq rfl
      cases heq
      exact hpath rfl

/-- A failure is planted at a path if one of the changes plants one there. -/
theorem get?_failures_foldl_apply (m : Memory) (changes : List Change) (path : Text) :
    (changes.foldl apply m).failures.get? path = none ↔ m.failures.get? path = none ∧
      ∀ q f, Change.failure q f ∈ changes → m.resolve q ≠ path := by
  induction changes generalizing m with
  | nil => simp
  | cons change changes ih =>
    rw [List.foldl_cons, ih, get?_failures_apply, and_assoc]
    refine and_congr_right fun _ => ?_
    simp only [resolve_congr (m.root_apply change), List.mem_cons]
    constructor
    · rintro ⟨hfirst, hrest⟩ q f (hq | hq)
      · exact hfirst q f hq.symm
      · exact hrest q f hq
    · intro h
      exact ⟨fun q f hq => h q f (.inl hq.symm), fun q f hq => h q f (.inr hq)⟩

theorem root_foldl_apply (m : Memory) (changes : List Change) :
    (changes.foldl apply m).root = m.root := by
  induction changes generalizing m with
  | nil => rfl
  | cons change changes ih => rw [List.foldl_cons, ih, root_apply]

/-! ### A local change -/

/-- What a tree becomes when a file is added at a path. The file is there, under
    every spelling of the path; what stood elsewhere is as it was; and a path
    elsewhere lists the names that it listed, but the nearest place above a new
    file lists one more, the next component of the path. -/
structure Updated (m : Memory) (path content : Text) (m' : Memory) : Prop where
  resolve_eq : ∀ q, m'.resolve q = m.resolve q
  stat_self : ∀ q, m.resolve q = path →
    m'.stat q = .ok { name := Path.base path, kind := .file, size := content.length }
  read_self : ∀ q, m.resolve q = path → m.failures.get? path = none → m'.read q = .ok content
  read_planted : ∀ q f, m.resolve q = path → m.failures.get? path = some f →
    m'.read q = .error f
  stat_other : ∀ q, m.resolve q ≠ path → m.Stands q → m'.stat q = m.stat q
  read_other : ∀ q, m.resolve q ≠ path → m.Stands q → m'.read q = m.read q
  lists_other : ∀ q names, m.resolve q ≠ path → m.Lists q names →
    ¬ (¬ m.Stands path ∧ m.Nearest path (m.resolve q)) → m'.Lists q names
  lists_nearest : ∀ q names, m.Lists q names → ¬ m.Stands path →
    m.Nearest path (m.resolve q) → ∃ n,
      Path.next? (Path.components (m.resolve q)) (Path.components path) = some n ∧
      m'.Lists q (names ++ [n])

theorem Tidy.not_stands_resolve_iff (h : m.Tidy taken) (p : Text) :
    ¬ m.Stands (m.resolve p) ↔ m.nodes.get? (m.resolve p) = none := by
  rw [h.stands_iff_of_clean (h.clean_resolve p) (h.isAbsolute_resolve p),
    Option.not_isSome_iff_eq_none]

/-- A path lists what the directory at its place keeps after a file was added. -/
theorem Linked.lists_addFile (h : m.Linked) {names more : List Text} (hl : m.Lists q names)
    (hnode : ∀ old, m.nodes.get? (m.resolve q) = some old → old.children = names → ∃ node,
      (m.addFile p content).nodes.get? (m.resolve q) = some node ∧ node.entry = old.entry ∧
      node.children = more) : (m.addFile p content).Lists q more := by
  have hlinked : (m.addFile p content).Linked := h.apply (.file p content)
  obtain ⟨hfail, old, hold, hdir, hnames⟩ := h.lists_iff.1 hl
  obtain ⟨node, hnode, hentry, hmore⟩ := hnode old hold hnames
  rw [hlinked.lists_iff, planted_addFile, resolve_addFile]
  exact ⟨hfail, node, hnode, hentry ▸ hdir, hmore⟩

/-- Adding a file to a tidy tree is a local change. -/
theorem Tidy.updated (h : m.Tidy taken) (p content : Text) :
    m.Updated (m.resolve p) content (m.addFile p content) := by
  have hplanted := m.planted_addFile p content
  obtain ⟨made, hmade, hentry, hcontent⟩ := get?_addFile_self m p content
  have hself : ∀ q, m.resolve q = m.resolve p →
      (m.addFile p content).nodes.get? ((m.addFile p content).resolve q) = some made := by
    intro q hq
    rw [resolve_addFile, hq, hmade]
  have hkind : made.entry.kind ≠ .directory := by
    rw [hentry]
    simp [Node.file]
  -- What stands at another path keeps its entry and its content.
  have hother : ∀ q, m.resolve q ≠ m.resolve p → m.Stands q → ∃ old node,
      m.nodes.get? (m.resolve q) = some old ∧
      (m.addFile p content).nodes.get? ((m.addFile p content).resolve q) = some node ∧
      node.entry = old.entry ∧ node.content = old.content := by
    intro q hq hstands
    obtain ⟨old, hold⟩ := stands_iff.1 hstands
    obtain ⟨node, hnode, hsame⟩ := h.exists_get?_addFile content hold hq
    exact ⟨old, node, hold, by rw [resolve_addFile, hnode], hsame⟩
  exact {
    resolve_eq := m.resolve_addFile p content
    stat_self := fun q hq => by
      rw [stat_of_get? (hself q hq), hentry]
      rfl
    read_self := fun q hq hfail => by
      rw [← hq, ← hplanted] at hfail
      rw [read_of_get? hfail (hself q hq), if_neg hkind, hcontent]
    read_planted := fun q f hq hfail => read_of_planted (by rw [hplanted, hq, hfail])
    stat_other := fun q hq hstands => by
      obtain ⟨old, node, hold, hnode, hentry, _⟩ := hother q hq hstands
      rw [stat_of_get? hnode, stat_of_get? hold, hentry]
    read_other := fun q hq hstands => by
      obtain ⟨old, node, hold, hnode, hentry, hcontent⟩ := hother q hq hstands
      cases hfail : m.failures.get? (m.resolve q) with
      | some f => rw [read_of_planted hfail, read_of_planted ((hplanted q).trans hfail)]
      | none =>
        rw [read_of_get? hfail hold, read_of_get? ((hplanted q).trans hfail) hnode, hentry,
          hcontent]
    lists_other := fun q names hq hl hnew => by
      rw [h.not_stands_resolve_iff] at hnew
      refine h.toLinked.lists_addFile hl fun old hold hnames => ?_
      rcases h.get?_addFile_cases content hold hq with ⟨hnone, hnearest, _⟩ | ⟨_, hnode⟩
      · exact absurd ⟨hnone, hnearest⟩ hnew
      · exact ⟨old, hnode, rfl, hnames⟩
    lists_nearest := fun q names hl hnew hnearest => by
      rw [h.not_stands_resolve_iff] at hnew
      obtain ⟨hfail, old, hold, _⟩ := h.toLinked.lists_iff.1 hl
      have hq : m.resolve q ≠ m.resolve p := fun heq =>
        hnearest.above.2 (congrArg Path.components heq)
      rcases h.get?_addFile_cases content hold hq with ⟨_, _, n, hnext, hnode⟩ | ⟨hkept, _⟩
      · refine ⟨n, hnext, h.toLinked.lists_addFile hl fun dir hdir hnames => ?_⟩
        obtain rfl := Option.some.inj (hold.symm.trans hdir)
        exact ⟨_, hnode, rfl, by rw [← hnames]; rfl⟩
      · exact absurd ⟨hnew, hnearest⟩ hkept }

/-- In a tree that is built on an absolute root, adding a file is a local change:
    what it changes is what `Updated` says. A relative path may be spelled behind
    the root as well; and a failure is met where one was planted. -/
theorem addFile_local {root : Text} (habs : Path.isAbsolute root = true) (changes : List Change)
    (p content : Text) :
    Updated (build root changes) ((build root changes).resolve p) content
      ((build root changes).addFile p content) ∧
    (∀ q, Path.isAbsolute q = false →
      (build root changes).resolve ((build root changes).root ++ Text.slash :: q) =
        (build root changes).resolve q) ∧
    ∀ path, (build root changes).failures.get? path = none ↔ ∀ q f,
      Change.failure q f ∈ changes → (build root changes).resolve q ≠ path := by
  have htidy := tidy_build habs changes
  have hroot := Path.ne_nil_of_isAbsolute htidy.root_absolute
  refine ⟨htidy.updated p content, fun q hq => ?_, fun path => ?_⟩
  · rw [htidy.resolve_eq, htidy.resolve_eq, Path.resolve, Path.resolve,
      if_pos ((Path.isAbsolute_append hroot _).trans htidy.root_absolute), hq,
      if_neg Bool.false_ne_true, Path.join_of_ne_nil hroot]
  · have hresolve := resolve_congr (root_foldl_apply (empty root) changes)
    rw [build, get?_failures_foldl_apply]
    simp only [hresolve]
    exact and_iff_right rfl

/-- A directory with a file, and a failure where nothing stands. -/
def localChanges : List Change :=
  [.file (text "lib/b.js") (text "b"), .failure (text "/p/lib/c.js") (.plain (text "no"))]

def localTree : Memory := build (text "/p/") localChanges

/-- A file that needs a directory may be read by any of its paths, what was there
    is read as before, and the nearest place lists the directory. -/
theorem addFile_local_sample :
    (localTree.addFile (text "lib/new/a.js") (text "aa")).read
      (text "/p/lib/../lib/new//a.js") = .ok (text "aa") ∧
    (localTree.addFile (text "lib/new/a.js") (text "aa")).read (text "lib/b.js") =
      localTree.read (text "lib/b.js") ∧
    localTree.Lists (text "lib") [text "b.js"] ∧
    (localTree.addFile (text "lib/new/a.js") (text "aa")).Lists (text "lib")
      [text "b.js", text "new"] := by
  have habs : Path.isAbsolute (text "/p/") = true := by decide
  obtain ⟨h, _, hfailures⟩ := addFile_local habs localChanges (text "lib/new/a.js") (text "aa")
  have hpath : localTree.resolve (text "lib/new/a.js") = text "/p/lib/new/a.js" := by
    decide +kernel
  have hlists : localTree.Lists (text "lib") [text "b.js"] := ⟨_, rfl, by decide +kernel⟩
  have hmissing : ∀ q ∈ [text "/p/lib/new/a.js", text "/p/lib/new"], ¬ localTree.Stands q := by
    simp only [stands_iff, not_exists, ← Option.eq_none_iff_forall_ne_some]
    decide +kernel
  have hnearest : localTree.Nearest (localTree.resolve (text "lib/new/a.js"))
      (localTree.resolve (text "lib")) := by
    rw [hpath, nearest_iff_of_missing (by decide +kernel) (by decide) (by decide +kernel)
      (hmissing _ (by decide +kernel)),
      nearest_iff_of_standing (by decide +kernel) (by decide +kernel) (by decide +kernel)
        ⟨_, rfl⟩]
    decide +kernel
  obtain ⟨n, hn, hmore⟩ := h.lists_nearest (text "lib") _ hlists
    (hmissing _ (hpath ▸ List.mem_cons_self)) hnearest
  have hname : n = text "new" := by
    refine Option.some.inj (hn.symm.trans ?_)
    decide +kernel
  refine ⟨h.read_self _ (by decide +kernel) ((hfailures _).2 ?_),
    h.read_other _ (by decide +kernel) ⟨_, rfl⟩, hlists, hname ▸ hmore⟩
  intro q f hmem
  obtain ⟨rfl, rfl⟩ : q = text "/p/lib/c.js" ∧ f = .plain (text "no") := by
    simpa [localChanges] using hmem
  decide +kernel

end ImportFinder.Memory
