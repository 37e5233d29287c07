import ImportFinder.Proofs.Path.Mention
import ImportFinder.Proofs.Tree.Growth
import Mathlib.Data.List.Induction

/-!
# Trees that are filled with files

When nothing but files is added below an absolute root, and none of them lies
below another one, what stands at each path below the root can be told from the
list of the additions (`Memory.due`): the last file that was added there, a
directory if some file was added below it, and otherwise nothing. A directory
keeps the names by which the paths of the files go on, in the order in which they
were first mentioned.

* `get?_insert`: what inserting a node changes. The node stands at its path, and
  each place above it that has no name for the next one gets that name;
* `Filled.addFile`, `filled_build`: the tree agrees with the list of the additions
  after each of them.
-/

namespace ImportFinder

namespace Table

variable {α : Type} {t : Table α} {key : Text} {value : α}

/-- A value is found at a key if no entry before its own has that key. -/
theorem get?_eq_some_iff : t.get? key = some value ↔
    ∃ before after, t = before ++ (key, value) :: after ∧ ∀ entry ∈ before, key ≠ entry.1 := by
  simp [get?, List.lookup_eq_some_iff]

theorem get?_eq_none_iff : t.get? key = none ↔ ∀ entry ∈ t, key ≠ entry.1 := by
  simp [get?, List.lookup_eq_none_iff]

end Table

namespace Memory

variable {m : Memory} {root path q : Text} {node : Node}

/-! ### Inserting a node -/

/-- A node that keeps one name more. -/
def withChild (node : Node) (name : Text) : Node :=
  { node with children := node.children ++ [name] }

/-- A place below which a path has all places above it, if it has something at
    all. -/
structure Rooted (root : Text) (m : Memory) : Prop where
  within : Path.Within root root
  standing : (m.nodes.get? root).isSome = true
  closed : ∀ {p q}, Path.Within root p → Path.Within root q →
    Path.components q <+: Path.components p → (m.nodes.get? p).isSome = true →
    (m.nodes.get? q).isSome = true

/-- What inserting a node below the root changes: at a place above it the next
    name is added, if nothing stands there. -/
theorem get?_insert (h : m.Rooted root) (hp : Path.Within root path) (hroot : path ≠ root)
    (hfree : m.nodes.get? path = none) (hq : Path.Within root q) :
    (m.insert path node).nodes.get? q =
      if q = path then some node
      else match Path.next? (Path.components q) (Path.components path) with
        | none => m.nodes.get? q
        | some n =>
          if (m.nodes.get? (Path.join q n)).isSome = true then m.nodes.get? q
          else some (withChild ((m.nodes.get? q).getD (Node.directory q)) n) := by
  have hclean := hp.clean
  have habs := hp.absolute
  induction path, hclean, habs using Path.parent_induction generalizing node with
  | step path hclean habs ih =>
    have hne := h.within.parent_ne hp hroot
    have hd := h.within.parent hp hroot
    have hcomp := h.within.components_eq hp hroot
    have hjoin := Path.join_parent_base hclean hne
    have hnext : Path.next? (Path.components (Path.parent path)) (Path.components path) =
        some (Path.base path) :=
      Path.next?_eq_some_iff.2 ⟨[], by rw [List.append_nil, hcomp]⟩
    by_cases hsome : (m.nodes.get? (Path.parent path)).isSome = true
    · rw [insert_eq, makeParents_of_stop (.inr hsome), get?_attach hne]
      split_ifs with hqp hqd
      · rfl
      · -- The parent gets the name of the node.
        obtain ⟨dir, hdir⟩ := Option.isSome_iff_exists.1 hsome
        simp [hqd, hnext, hjoin, hfree, hdir, withChild]
      · -- Something stands at the parent, so all names above it are there.
        cases hqnext : Path.next? (Path.components q) (Path.components path) with
        | none => rfl
        | some n =>
          have hpath := Path.next?_eq_some_iff.1 hqnext
          have hn := hp.isComponent hpath
          have habove : Path.components (Path.join q n) <+:
              Path.components (Path.parent path) := by
            rw [Path.components_join hn]
            rw [hcomp, List.prefix_concat_iff] at hpath
            exact hpath.resolve_left fun heq =>
              hqd (hq.eq hd (List.append_inj' heq rfl).1)
          exact (if_pos (h.closed hd (hq.join hn) habove hsome)).symm
    · -- The parent is inserted first.
      have hnone : m.nodes.get? (Path.parent path) = none := by simpa using hsome
      have hdroot : Path.parent path ≠ root := by
        rintro heq
        exact hsome (heq ▸ h.standing)
      have hparent := @ih hne (Node.directory (Path.parent path)) hd hdroot hnone
      rw [insert_eq, makeParents_of_missing hclean habs hne hnone, get?_attach hne, hparent]
      split_ifs with hqp hqd
      · rfl
      · simp [hqd, hnext, hjoin, hfree, hnone, withChild]
      · rw [hcomp, Path.next?_concat_of_ne fun heq => hqd (hq.eq hd heq)]

/-! ### What is due -/

variable {files : List (Text × Text)} {content n : Text}

/-- The places that files mention, in the order in which the files were added. -/
def places (files : List (Text × Text)) : List (List Text) := (files.map (·.1)).map Path.components

theorem places_concat : places (files ++ [(path, content)]) =
    places files ++ [Path.components path] := by
  simp [places]

/-- What should stand at a path below the root when files have been added: the
    last file that was added there, or a directory if the path is above some
    file. -/
def due (root : Text) (files : List (Text × Text)) (q : Text) : Option Node :=
  match Table.get? files.reverse q with
  | some content => some (Node.file q content)
  | none =>
    if q = root ∨ ∃ cs ∈ places files, Path.components q <+: cs then
      some { Node.directory q with children := Path.branches (places files) (Path.components q) }
    else none

/-- Files below the root, none of which lies below another one. -/
structure Apart (root : Text) (files : List (Text × Text)) : Prop where
  root_within : Path.Within root root
  root_not_mem : root ∉ files.map (·.1)
  within : ∀ {q}, q ∈ files.map (·.1) → Path.Within root q
  not_below : ∀ {p q}, p ∈ files.map (·.1) → q ∈ files.map (·.1) → ¬ Path.Below p q

theorem Apart.left {more : List (Text × Text)} (h : Apart root (files ++ more)) :
    Apart root files := by
  have hmem : ∀ {q}, q ∈ files.map (·.1) → q ∈ (files ++ more).map (·.1) := fun hq => by
    rw [List.map_append]
    exact List.mem_append_left _ hq
  exact {
    root_within := h.root_within
    root_not_mem := fun hroot => h.root_not_mem (hmem hroot)
    within := fun hq => h.within (hmem hq)
    not_below := fun hp hq => h.not_below (hmem hp) (hmem hq) }

/-- Nothing that is mentioned lies below a file. -/
theorem Apart.eq_of_prefix (h : Apart root files) (hq : q ∈ files.map (·.1)) {cs : List Text}
    (hcs : cs ∈ places files) (hunder : Path.components q <+: cs) : Path.components q = cs := by
  obtain ⟨p, hp, rfl⟩ := List.mem_map.1 hcs
  by_contra hne
  exact h.not_below hp hq ⟨hunder, hne⟩

theorem get?_reverse_eq_none_iff :
    Table.get? files.reverse q = none ↔ q ∉ files.map (·.1) := by
  rw [Table.get?_eq_none_iff, List.mem_map, not_exists]
  simp [eq_comm]

theorem due_of_mem (root : Text) (hq : q ∈ files.map (·.1)) :
    ∃ content, due root files q = some (Node.file q content) := by
  cases hget : Table.get? files.reverse q with
  | none => exact absurd hq (get?_reverse_eq_none_iff.1 hget)
  | some content => exact ⟨content, by rw [due, hget]⟩

theorem due_of_not_mem (hq : q ∉ files.map (·.1)) : due root files q =
    if q = root ∨ ∃ cs ∈ places files, Path.components q <+: cs then
      some { Node.directory q with children := Path.branches (places files) (Path.components q) }
    else none := by
  rw [due, get?_reverse_eq_none_iff.2 hq]

/-- Something is due at the root and at all places that are mentioned. -/
theorem isSome_due_iff : (due root files q).isSome = true ↔
    q = root ∨ ∃ cs ∈ places files, Path.components q <+: cs := by
  by_cases hq : q ∈ files.map (·.1)
  · obtain ⟨content, hdue⟩ := due_of_mem root hq
    simp only [hdue, Option.isSome_some, true_iff]
    exact .inr ⟨_, List.mem_map_of_mem hq, List.prefix_rfl⟩
  · rw [due_of_not_mem hq]
    split_ifs with h <;> simpa using h

/-- Below a place, something is due at its branches. -/
theorem isSome_due_join_iff (hq : Path.Within root q) (hn : Path.IsComponent n) :
    (due root files (Path.join q n)).isSome = true ↔
      n ∈ Path.branches (places files) (Path.components q) := by
  rw [isSome_due_iff, Path.mem_branches_iff, Path.components_join hn]
  refine or_iff_right fun hroot => ?_
  -- The root does not lie below itself.
  have hle := hq.under.length_le
  rw [← hroot, Path.components_join hn, List.length_append, List.length_singleton] at hle
  omega

/-- The file that is added last is what is due at its path. -/
theorem due_concat_self : due root (files ++ [(path, content)]) path =
    some (Node.file path content) := by
  rw [due, List.reverse_append, List.reverse_singleton, List.singleton_append, Table.get?_cons,
    if_pos rfl]

/-- If something is due at the path of one more file, that is a file, too. -/
theorem Apart.mem_of_isSome_due (h : Apart root (files ++ [(path, content)]))
    (hsome : (due root files path).isSome = true) : path ∈ files.map (·.1) := by
  have hmem : path ∈ (files ++ [(path, content)]).map (·.1) := by simp
  obtain rfl | ⟨cs, hcs, hunder⟩ := isSome_due_iff.1 hsome
  · exact absurd hmem h.root_not_mem
  · have hcs' : cs ∈ places (files ++ [(path, content)]) := by
      rw [places_concat]
      exact List.mem_append_left _ hcs
    have heq := h.eq_of_prefix hmem hcs' hunder
    obtain ⟨q, hq, rfl⟩ := List.mem_map.1 hcs
    exact (h.left.within hq).eq (h.within hmem) heq.symm ▸ hq

/-- One more file changes nothing at a place that is not above it. -/
theorem due_concat_of_none (h : Apart root (files ++ [(path, content)])) (hq : Path.Within root q)
    (hne : q ≠ path) (hnext : Path.next? (Path.components q) (Path.components path) = none) :
    due root (files ++ [(path, content)]) q = due root files q := by
  have hpath : Path.Within root path := h.within (by simp)
  have hnot : ¬ Path.components q <+: Path.components path := by
    intro hunder
    rcases Path.prefix_iff_eq_or.1 hunder with heq | ⟨n, hn⟩
    · exact hne (hq.eq hpath heq)
    · exact absurd (hnext.symm.trans (Path.next?_eq_some_iff.2 hn)) (by simp)
  have hfile : Table.get? (files ++ [(path, content)]).reverse q =
      Table.get? files.reverse q := by
    rw [List.reverse_append, List.reverse_singleton, List.singleton_append, Table.get?_cons,
      if_neg hne]
  have hmentioned : (∃ cs ∈ places (files ++ [(path, content)]), Path.components q <+: cs) ↔
      ∃ cs ∈ places files, Path.components q <+: cs := by
    simp [places_concat, or_and_right, exists_or, hnot]
  have hbranches : Path.branches (places (files ++ [(path, content)])) (Path.components q) =
      Path.branches (places files) (Path.components q) := by
    rw [places_concat, Path.branches_concat_of_none hnext]
  simp only [due, hfile, hmentioned, hbranches]

/-- Above one more file, the name by which its path goes on is a branch. -/
theorem due_concat_of_some (h : Apart root (files ++ [(path, content)])) (hq : Path.Within root q)
    (hne : q ≠ path) (hnext : Path.next? (Path.components q) (Path.components path) = some n) :
    due root (files ++ [(path, content)]) q =
      if n ∈ Path.branches (places files) (Path.components q) then due root files q
      else some (withChild ((due root files q).getD (Node.directory q)) n) := by
  have hpath : Path.Within root path := h.within (by simp)
  have hn := Path.next?_eq_some_iff.1 hnext
  have hunder := (List.prefix_append _ [n]).trans hn
  have hpathmem : Path.components path ∈ places (files ++ [(path, content)]) := by
    simp [places_concat]
  -- The path lies below `q`, so there is no file at `q`.
  have hmem : q ∉ (files ++ [(path, content)]).map (·.1) := fun hmem =>
    hne (hq.eq hpath (h.eq_of_prefix hmem hpathmem hunder))
  have hmem' : q ∉ files.map (·.1) := fun hq => hmem (by simp [hq])
  rw [due_of_not_mem hmem, if_pos (.inr ⟨_, hpathmem, hunder⟩), places_concat,
    due_of_not_mem hmem']
  split_ifs with hold hdue hdue
  · rw [Path.branches_concat_of_mem hnext hold]
  · -- A place with a branch is mentioned.
    obtain ⟨cs, hcs, hbranch⟩ := Path.mem_branches_iff.1 hold
    exact absurd (.inr ⟨cs, hcs, (List.prefix_append _ [n]).trans hbranch⟩) hdue
  · rw [Path.branches_concat_of_not_mem hnext hold]
    rfl
  · -- Nothing was there, so there are no branches either.
    have hnil : Path.branches (places files) (Path.components q) = [] :=
      Path.branches_eq_nil fun cs hcs hbelow => hdue (.inr ⟨cs, hcs, hbelow⟩)
    rw [Path.branches_concat_of_not_mem hnext hold, hnil]
    rfl

/-- What one more file changes at a place other than its own. -/
theorem due_concat (h : Apart root (files ++ [(path, content)])) (hq : Path.Within root q)
    (hne : q ≠ path) : due root (files ++ [(path, content)]) q =
      match Path.next? (Path.components q) (Path.components path) with
      | none => due root files q
      | some n =>
        if n ∈ Path.branches (places files) (Path.components q) then due root files q
        else some (withChild ((due root files q).getD (Node.directory q)) n) := by
  cases hnext : Path.next? (Path.components q) (Path.components path) with
  | none => exact due_concat_of_none h hq hne hnext
  | some n => exact due_concat_of_some h hq hne hnext

/-! ### What stands -/

/-- What stands in a tree below the root is what is due there when files have been
    added. -/
structure Filled (root : Text) (files : List (Text × Text)) (m : Memory) : Prop where
  root_eq : m.root = root
  failures_eq : m.failures = []
  get?_eq : ∀ {q}, Path.Within root q → m.nodes.get? q = due root files q

theorem Filled.get?_failures (h : m.Filled root files) (q : Text) :
    m.failures.get? q = none := by
  rw [h.failures_eq, Table.get?, List.lookup_nil]

theorem Filled.rooted (h : m.Filled root files) (hroot : Path.Within root root) :
    m.Rooted root where
  within := hroot
  standing := by
    rw [h.get?_eq hroot, isSome_due_iff]
    exact .inl rfl
  closed {p q} hp hq hqp hsome := by
    rw [h.get?_eq hp, isSome_due_iff] at hsome
    rw [h.get?_eq hq, isSome_due_iff]
    rcases hsome with rfl | ⟨cs, hcs, hpcs⟩
    · -- Between the root and itself there is nothing else.
      have heq := hq.under.eq_of_length_le hqp.length_le
      exact .inl (hq.eq hp heq.symm)
    · exact .inr ⟨cs, hcs, hqp.trans hpcs⟩

theorem filled_empty (root : Text) : (empty root).Filled (Path.clean root) [] where
  root_eq := rfl
  failures_eq := rfl
  get?_eq {q} _ := by
    rw [due_of_not_mem (by simp), empty, Table.get?_cons]
    by_cases hq : q = Path.clean root
    · rw [if_pos hq, if_pos (.inl hq), hq]
      rfl
    · rw [if_neg hq, if_neg (by simp [hq, places])]
      rfl

/-- A tree goes on being filled when one more file is added. -/
theorem Filled.addFile (h : m.Filled root files) {p : Text} (hp : m.resolve p = path)
    (hapart : Apart root (files ++ [(path, content)])) :
    (m.addFile p content).Filled root (files ++ [(path, content)]) := by
  have hpath : Path.Within root path := hapart.within (by simp)
  have hroot : path ≠ root := fun heq => hapart.root_not_mem (heq ▸ by simp)
  unfold Memory.addFile
  dsimp only
  rw [hp]
  split
  · next node hget =>
    -- There is a file already: what is above it has the names that lead to it.
    have hmem : path ∈ files.map (·.1) := hapart.mem_of_isSome_due (by
      rw [← h.get?_eq hpath, hget]
      rfl)
    obtain ⟨old, hold⟩ := due_of_mem root hmem
    rw [h.get?_eq hpath, hold] at hget
    obtain rfl := Option.some.inj hget
    refine ⟨h.root_eq, h.failures_eq, fun {q} hq => ?_⟩
    rw [get?_put_nodes]
    split_ifs with hqp
    · rw [hqp, due_concat_self]
      rfl
    rw [due_concat hapart hq hqp, h.get?_eq hq]
    cases hnext : Path.next? (Path.components q) (Path.components path) with
    | none => rfl
    | some n =>
      have hn : n ∈ Path.branches (places files) (Path.components q) :=
        Path.mem_branches_iff.2 ⟨_, List.mem_map_of_mem hmem, Path.next?_eq_some_iff.1 hnext⟩
      exact (if_pos hn).symm
  · next hget =>
    refine ⟨root_failures_insert.1.trans h.root_eq, root_failures_insert.2.trans h.failures_eq,
      fun {q} hq => ?_⟩
    rw [get?_insert (h.rooted hapart.root_within) hpath hroot hget hq]
    split_ifs with hqp
    · rw [hqp, due_concat_self]
    rw [due_concat hapart hq hqp, h.get?_eq hq]
    cases hnext : Path.next? (Path.components q) (Path.components path) with
    | none => rfl
    | some n =>
      have hn := hpath.isComponent (Path.next?_eq_some_iff.1 hnext)
      dsimp only
      rw [h.get?_eq (hq.join hn)]
      simp only [isSome_due_join_iff hq hn]

/-! ### Files that are added one after the other -/

/-- The changes that add files. -/
def additions (calls : List (Text × Text)) : List Change := calls.map fun c => .file c.1 c.2

/-- The files that are added below a root, at the places for which their paths
    stand. -/
def added (root : Text) (calls : List (Text × Text)) : List (Text × Text) :=
  calls.map fun c => ((empty root).resolve c.1, c.2)

theorem filled_build {root : Text} {calls : List (Text × Text)}
    (h : Apart (Path.clean root) (added root calls)) :
    (build root (additions calls)).Filled (Path.clean root) (added root calls) := by
  induction calls using List.reverseRecOn with
  | nil => exact filled_empty root
  | append_singleton calls c ih =>
    have hadded : added root (calls ++ [c]) =
        added root calls ++ [((empty root).resolve c.1, c.2)] := by simp [added]
    have hbuild : build root (additions (calls ++ [c])) =
        (build root (additions calls)).addFile c.1 c.2 := by simp [build, additions, apply]
    rw [hadded] at h ⊢
    rw [hbuild]
    have hfilled := ih h.left
    refine hfilled.addFile ?_ h
    -- Paths are taken from the root, and that is the same as before.
    have hroot : (build root (additions calls)).root = (empty root).root := hfilled.root_eq
    unfold resolve
    rw [hroot]

end Memory

end ImportFinder
