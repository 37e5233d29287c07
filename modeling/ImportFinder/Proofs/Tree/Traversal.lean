import ImportFinder.Proofs.Tree.Distinct
import ImportFinder.Proofs.Tree.Filled
import ImportFinder.Proofs.Walk.Sequence

/-!
# Walking a tree that is filled with files

Whatever is added is found again. When files are added below an absolute root,
none of them below another one, a walk from the root visits each of them once and
nothing else, depth first and in each directory in the order in which the calls
first mentioned its entries; and what is read at a path is what was added there
last (`walk_finds_added`).

A directory lists the branches of its place, and each entry is a file or a
directory as is due there (`Filled.list`). So a walk below a directory visits the
files that lie below its place (`Filled.mem_visited_iff`). The order follows from
that of the branches alone.

The walk starts at the root as it was given. This may not be cleaned; only the
paths below it are.
-/

namespace ImportFinder.Memory

variable {m : Memory} {root dir q : Text} {files : List (Text × Text)} {taken : Text → Prop}

/-! ### Listings -/

theorem Linked.exists_list_ok (h : m.Linked) {p : Text} {node : Node}
    (hfail : m.failures.get? (m.resolve p) = none) (hget : m.nodes.get? (m.resolve p) = some node)
    (hkind : node.entry.kind = .directory) : ∃ entries, m.list p = .ok entries := by
  have hlisted := h.listed p
  generalize m.list p = answer at hlisted
  cases hlisted with
  | planted hfail' => exact absurd (hfail.symm.trans hfail') (by simp)
  | missing _ hget' => exact absurd (hget.symm.trans hget') (by simp)
  | notDirectory _ hget' hkind' =>
    exact absurd (Option.some.inj (hget.symm.trans hget') ▸ hkind) hkind'
  | directory => exact ⟨_, rfl⟩

/-- The path of a directory that is due, whether or not it is cleaned. -/
structure Due (root : Text) (files : List (Text × Text)) (dir : Text) : Prop where
  absolute : Path.isAbsolute dir = true
  under : Path.components root <+: Path.components dir
  mentioned : Path.clean dir = root ∨ ∃ cs ∈ places files, Path.components dir <+: cs
  not_mem : Path.clean dir ∉ files.map (·.1)

theorem Due.within (h : Due root files dir) : Path.Within root (Path.clean dir) where
  clean := Path.clean_clean dir
  absolute := (Path.isAbsolute_clean dir).trans h.absolute
  under := by
    rw [Path.components_clean]
    exact h.under

theorem Due.join (h : Due root files dir) {n : Text} (hn : Path.IsComponent n)
    (hbranch : n ∈ Path.branches (places files) (Path.components dir))
    (hnot : Path.join dir n ∉ files.map (·.1)) : Due root files (Path.join dir n) where
  absolute := (Path.isAbsolute_join hn dir).trans h.absolute
  under := by
    rw [Path.components_join hn]
    exact h.under.trans (List.prefix_append _ _)
  mentioned := .inr (by rw [Path.components_join hn]; exact Path.mem_branches_iff.1 hbranch)
  not_mem := by rwa [Path.clean_join hn]

theorem Due.due_eq (h : Due root files dir) : due root files (Path.clean dir) =
    some { Node.directory (Path.clean dir) with
      children := Path.branches (places files) (Path.components dir) } := by
  have hmentioned := h.mentioned
  rw [← Path.components_clean] at hmentioned
  rw [due_of_not_mem h.not_mem, if_pos hmentioned, Path.components_clean]

theorem kind_of_due {node : Node} (h : due root files q = some node) :
    node.entry.kind = if q ∈ files.map (·.1) then .file else .directory := by
  by_cases hq : q ∈ files.map (·.1)
  · obtain ⟨content, hdue⟩ := due_of_mem root hq
    obtain rfl := Option.some.inj (hdue.symm.trans h)
    exact (if_pos hq).symm
  · rw [due_of_not_mem hq] at h
    split_ifs at h
    obtain rfl := Option.some.inj h
    exact (if_neg hq).symm

/-- A directory that is due lists its branches: the files that were added there,
    and directories that are due. -/
theorem Filled.list (h : m.Filled root files) (ht : m.Tidy taken) (hdir : Due root files dir) :
    ∃ entries, m.list dir = .ok entries ∧
      entries.map (·.name) = Path.branches (places files) (Path.components dir) ∧
      ∀ e ∈ entries, (e.kind = .file ∧ Path.join dir e.name ∈ files.map (·.1)) ∨
        (e.kind = .directory ∧ Due root files (Path.join dir e.name)) := by
  have hresolve := ht.resolve_of_isAbsolute hdir.absolute
  have hget := h.get?_eq hdir.within
  rw [hdir.due_eq, ← hresolve] at hget
  obtain ⟨entries, hl⟩ := ht.toLinked.exists_list_ok (h.get?_failures _) hget rfl
  obtain ⟨node, hnode, _, hnames, hchildren⟩ := ht.list_ok hl
  obtain rfl := Option.some.inj (hget.symm.trans hnode)
  replace hnames : entries.map (·.name) = Path.branches (places files) (Path.components dir) :=
    hnames
  refine ⟨entries, hl, hnames, fun e he => ?_⟩
  have hn := ht.isComponent hl he
  have hbranch : e.name ∈ Path.branches (places files) (Path.components dir) :=
    hnames ▸ List.mem_map_of_mem he
  -- The entry is that of the node which is due below the directory.
  obtain ⟨child, hchild, rfl⟩ := hchildren e he
  rw [hresolve, h.get?_eq (hdir.within.join hn), Path.join_clean hn] at hchild
  have hkind := kind_of_due hchild
  split_ifs at hkind with hfile
  · exact .inl ⟨hkind, hfile⟩
  · exact .inr ⟨hkind, hdir.join hn hbranch hfile⟩

theorem Filled.rootProblem (h : m.Filled root files) (ht : m.Tidy taken)
    (hdir : Due root files dir) : Walk.rootProblem m.tree dir = none := by
  have hget := h.get?_eq hdir.within
  have hresolve := ht.resolve_of_isAbsolute hdir.absolute
  rw [hdir.due_eq, ← hresolve] at hget
  simp [Walk.rootProblem, tree, stat, hget, Node.directory]

/-! ### Walks -/

/-- Without a list of extensions, every file that is reached is visited. -/
theorem candidates_nil (es : List Walk.Event) : Walk.candidates [] es = (Walk.stats es).files := by
  have haccepts : ∀ name, Walk.accepts [] name = true := fun _ => rfl
  simp [Walk.candidates, Walk.stats, haccepts]

theorem ignores_ofList_nil (name : Text) : (IgnoreSet.ofList []).ignores name = false := by
  cases name <;> rfl

/-- Passing an entry visits the files that go on by its name, if so does the walk
    below it. -/
theorem Filled.mem_pass_iff (h : m.Filled root files) (ht : m.Tidy taken)
    (hapart : Apart root files) (hdir : Due root files dir) {entries : List Entry}
    (hl : m.list dir = .ok entries) {e : Entry} (he : e ∈ entries)
    (hrec : e.kind = .directory → Due root files (Path.join dir e.name) →
      (q ∈ (Walk.stats (Walk.descend m.tree (.ofList []) (Path.join dir e.name))).files ↔
        q ∈ files.map (·.1) ∧ Path.Below q (Path.join dir e.name))) :
    q ∈ (Walk.stats (Walk.pass m.tree (.ofList []) dir e)).files ↔
      q ∈ files.map (·.1) ∧ Path.components dir ++ [e.name] <+: Path.components q := by
  have hi := ignores_ofList_nil e.name
  obtain ⟨entries', hl', _, hentries⟩ := h.list ht hdir
  obtain rfl := Except.ok.inj (hl.symm.trans hl')
  rw [← Path.components_join (ht.isComponent hl he)]
  rcases hentries e he with ⟨hkind, hfile⟩ | ⟨hkind, hdue⟩
  · have hfiles : (Walk.stats (Walk.pass m.tree (.ofList []) dir e)).files =
        [Path.join dir e.name] := by
      rw [Walk.pass_file hi hkind]
      rfl
    rw [hfiles, List.mem_singleton]
    constructor
    · rintro rfl
      exact ⟨hfile, List.prefix_rfl⟩
    · -- No other file lies below this one.
      rintro ⟨hq, hunder⟩
      by_contra hne
      exact hapart.not_below hq hfile
        ⟨hunder, fun heq => hne ((hapart.within hq).eq (hapart.within hfile) heq.symm)⟩
  · rw [Walk.pass_directory hi hkind, hrec hkind hdue]
    -- The directory itself is no file.
    refine and_congr_right fun hq => and_iff_left fun heq => hdue.not_mem ?_
    rw [← Path.components_clean] at heq
    exact hdue.within.eq (hapart.within hq) heq ▸ hq

/-- A walk below a directory visits the files that lie below its place. -/
theorem Filled.mem_visited_iff (h : m.Filled root files) (ht : m.Tidy taken)
    (hapart : Apart root files) (hdir : Due root files dir) :
    q ∈ (Walk.stats (Walk.descend m.tree (.ofList []) dir)).files ↔
      q ∈ files.map (·.1) ∧ Path.Below q dir := by
  have hf := ht.finite dir
  induction hf with
  | intro dir hsub ih =>
    obtain ⟨entries, hl, hnames, _⟩ := h.list ht hdir
    have hpass : ∀ e ∈ entries, (q ∈ (Walk.stats (Walk.pass m.tree (.ofList []) dir e)).files ↔
        q ∈ files.map (·.1) ∧ Path.components dir ++ [e.name] <+: Path.components q) :=
      fun e he => h.mem_pass_iff ht hapart hdir hl he fun hkind hdue =>
        ih _ ⟨entries, hl, e, he, hkind, rfl⟩ hdue
    rw [Walk.files_descend_of_ok ⟨dir, hsub⟩ hl, List.mem_flatMap]
    constructor
    · rintro ⟨e, he, hq⟩
      obtain ⟨hq, hunder⟩ := (hpass e he).1 hq
      exact ⟨hq, Path.below_iff.2 ⟨e.name, hunder⟩⟩
    · rintro ⟨hq, hbelow⟩
      obtain ⟨n, hn⟩ := Path.below_iff.1 hbelow
      -- The name by which the file goes on is a branch, so it is listed.
      have hbranch : n ∈ Path.branches (places files) (Path.components dir) :=
        Path.mem_branches_iff.2 ⟨_, List.mem_map_of_mem hq, hn⟩
      rw [← hnames] at hbranch
      obtain ⟨e, he, rfl⟩ := List.mem_map.1 hbranch
      exact ⟨e, he, (hpass e he).2 ⟨hq, hn⟩⟩

/-- No directory that is due fails to be listed, nor does one below it. -/
theorem Filled.skipped_eq_nil (h : m.Filled root files) (ht : m.Tidy taken)
    (hdir : Due root files dir) :
    (Walk.stats (Walk.descend m.tree (.ofList []) dir)).skipped = [] := by
  have hf := ht.finite dir
  induction hf with
  | intro dir hsub ih =>
    obtain ⟨entries, hl, _, hentries⟩ := h.list ht hdir
    have hskipped : (Walk.stats (Walk.descend m.tree (.ofList []) dir)).skipped =
        entries.flatMap fun e => (Walk.stats (Walk.pass m.tree (.ofList []) dir e)).skipped := by
      rw [Walk.descend_of_ok ⟨dir, hsub⟩ hl]
      exact List.filterMap_flatMap
    rw [hskipped, List.flatMap_eq_nil_iff]
    intro e he
    have hi := ignores_ofList_nil e.name
    rcases hentries e he with ⟨hkind, _⟩ | ⟨hkind, hdue⟩
    · rw [Walk.pass_file hi hkind]
      rfl
    · rw [Walk.pass_directory hi hkind]
      exact ih _ ⟨entries, hl, e, he, hkind, rfl⟩ hdue

/-- A walk visits the files in the order in which they are mentioned. -/
theorem Filled.pairwise_files (h : m.Filled root files) (ht : m.Tidy taken)
    (hn : m.tree.WellNamed) (hdir : Due root files dir) :
    (Walk.stats (Walk.descend m.tree (.ofList []) dir)).files.Pairwise
      (Path.Precedes (files.map (·.1))) := by
  refine Walk.pairwise_files hn (fun dir sub hdir hsub => ?_) (fun dir entries hdir hl => ?_)
    (ht.finite dir) hdir
  · obtain ⟨entries, hl, _, hentries⟩ := h.list ht hdir
    obtain ⟨entries', hl', e, he, hk, rfl⟩ := hsub
    obtain rfl := Except.ok.inj (hl.symm.trans hl')
    rcases hentries e he with ⟨hk', _⟩ | ⟨_, hdue⟩
    · exact absurd (hk.symm.trans hk') (by simp)
    · exact hdue
  · obtain ⟨entries', hl', hnames, _⟩ := h.list ht hdir
    obtain rfl := Except.ok.inj (hl.symm.trans hl')
    rw [hnames]
    exact Path.pairwise_branches _ _

/-- What is read at a path is what was added there last. -/
theorem Filled.read (h : m.Filled root files) (ht : m.Tidy taken) (hq : Path.Within root q)
    (hmem : q ∈ files.map (·.1)) : ∃ before content after,
      files = before ++ (q, content) :: after ∧ q ∉ after.map (·.1) ∧ m.read q = .ok content := by
  cases hlast : Table.get? files.reverse q with
  | none => exact absurd hmem (get?_reverse_eq_none_iff.1 hlast)
  | some content =>
    obtain ⟨after, before, hfiles, hnot⟩ := Table.get?_eq_some_iff.1 hlast
    refine ⟨before.reverse, content, after.reverse, ?_, ?_, ?_⟩
    · simpa using congrArg List.reverse hfiles
    · simpa using fun other hafter => hnot (q, other) hafter rfl
    · have hresolve : m.resolve q = q := by
        rw [ht.resolve_of_isAbsolute hq.absolute, hq.clean]
      have hget : m.nodes.get? q = some (Node.file q content) := by
        rw [h.get?_eq hq, due, hlast]
      have hkind : ¬ (Node.file q content).entry.kind = .directory := by simp [Node.file]
      simp only [Memory.read, hresolve, h.get?_failures, hget, if_neg hkind]
      rfl

/-! ### What is added is found -/

theorem relinked_additions (m : Memory) (calls : List (Text × Text)) :
    m.relinked (additions calls) = [] := by
  induction calls generalizing m with
  | nil => rfl
  | cons c calls ih => exact ih _

/-- Files that are added below a root, none of them below another one. -/
theorem apart_added {root : Text} (habs : Path.isAbsolute root = true)
    {calls : List (Text × Text)}
    (hbelow : ∀ c ∈ calls, Path.Below ((empty root).resolve c.1) root)
    (hnot : ∀ c ∈ calls, ∀ d ∈ calls,
      ¬ Path.Below ((empty root).resolve c.1) ((empty root).resolve d.1)) :
    Apart (Path.clean root) (added root calls) := by
  have hmem : ∀ {q}, q ∈ (added root calls).map (·.1) →
      ∃ c ∈ calls, (empty root).resolve c.1 = q := by simp [added]
  have hclean := Path.clean_clean root
  have habs' := (Path.isAbsolute_clean root).trans habs
  have hresolve : ∀ p, (empty root).resolve p = Path.resolve (Path.clean root) p :=
    resolve_eq hclean habs'
  refine ⟨⟨hclean, habs', List.prefix_rfl⟩, fun hroot => ?_, fun {q} hq => ?_, fun hp hq => ?_⟩
  · obtain ⟨c, hc, heq⟩ := hmem hroot
    have hne := (hbelow c hc).2
    rw [heq, Path.components_clean] at hne
    exact hne rfl
  · obtain ⟨c, hc, rfl⟩ := hmem hq
    refine ⟨?_, ?_, ?_⟩
    · rw [hresolve, Path.clean_resolve habs']
    · rw [hresolve, Path.isAbsolute_resolve habs']
    · rw [Path.components_clean]
      exact (hbelow c hc).1
  · obtain ⟨c, hc, rfl⟩ := hmem hp
    obtain ⟨d, hd, rfl⟩ := hmem hq
    exact hnot c hc d hd

/-- Whatever is added below an absolute root is found again, if none of the files
    lies below another one: a walk from the root, without ignored names and for
    all extensions, visits the place of each file once and nothing else, depth
    first and in each directory in the order in which the files first mentioned
    its entries; and what is read there is what was added last. -/
theorem walk_finds_added {root : Text} (habs : Path.isAbsolute root = true)
    (calls : List (Text × Text))
    (hbelow : ∀ c ∈ calls, Path.Below ((empty root).resolve c.1) root)
    (hnot : ∀ c ∈ calls, ∀ d ∈ calls,
      ¬ Path.Below ((empty root).resolve c.1) ((empty root).resolve d.1)) :
    Walk.rootProblem (build root (additions calls)).tree root = none ∧
    ∃ visited, (∃ n, ∀ steps, n ≤ steps → ∃ es,
        Walk.events (build root (additions calls)).tree (.ofList []) steps root = some es ∧
        Walk.candidates [] es = visited ∧ (Walk.stats es).files = visited ∧
        (Walk.stats es).skipped = []) ∧
      visited.Nodup ∧ (∀ q, q ∈ visited ↔ ∃ c ∈ calls, (empty root).resolve c.1 = q) ∧
      visited.Pairwise (Path.Precedes (calls.map fun c => (empty root).resolve c.1)) ∧
      ∀ q ∈ visited, ∃ before c after, calls = before ++ c :: after ∧
        (empty root).resolve c.1 = q ∧ (∀ d ∈ after, (empty root).resolve d.1 ≠ q) ∧
        (build root (additions calls)).read q = .ok c.2 := by
  have hapart := apart_added habs hbelow hnot
  have hfilled := filled_build hapart
  have htidy := tidy_build habs (additions calls)
  have hn : (build root (additions calls)).tree.WellNamed :=
    htidy.wellNamed fun path => by simp [relinked_additions]
  have hpaths : (added root calls).map (·.1) = calls.map fun c => (empty root).resolve c.1 := by
    simp [added]
  have hdue : Due (Path.clean root) (added root calls) root :=
    ⟨habs, by rw [Path.components_clean], .inl rfl, hapart.root_not_mem⟩
  have hvisited : ∀ q, q ∈ (Walk.stats (Walk.descend (build root (additions calls)).tree
      (.ofList []) root)).files ↔ ∃ c ∈ calls, (empty root).resolve c.1 = q := by
    intro q
    rw [hfilled.mem_visited_iff htidy hapart hdue, hpaths, List.mem_map]
    refine and_iff_left_of_imp ?_
    rintro ⟨c, hc, rfl⟩
    exact hbelow c hc
  have hf := htidy.finite root
  obtain ⟨n, hevents⟩ := Walk.exists_events_eq (.ofList []) hf
  refine ⟨hfilled.rootProblem htidy hdue, _, ⟨n, fun steps hle => ⟨_, hevents steps hle,
    candidates_nil _, rfl, hfilled.skipped_eq_nil htidy hdue⟩⟩, ?_, hvisited, ?_, fun q hq => ?_⟩
  · exact (Walk.nodup_paths hn hf).sublist (Walk.sublist_files_paths _)
  · exact hpaths ▸ hfilled.pairwise_files htidy hn hdue
  · have hmem : q ∈ (added root calls).map (·.1) := by
      rw [hpaths]
      exact List.mem_map.2 ((hvisited q).1 hq)
    obtain ⟨before, content, after, hfiles, hlast, hread⟩ :=
      hfilled.read htidy (hapart.within hmem) hmem
    -- The list of the files is that of the calls, so the calls are divided alike.
    obtain ⟨before, more, rfl, rfl, hmore⟩ := List.map_eq_append_iff.1 hfiles
    obtain ⟨c, after, rfl, hc, rfl⟩ := List.map_eq_cons_iff.1 hmore
    obtain ⟨hplace, rfl⟩ := Prod.mk.inj hc
    refine ⟨before, c, after, rfl, hplace, fun d hd heq => hlast ?_, hread⟩
    rw [List.map_map]
    exact List.mem_map.2 ⟨d, hd, heq⟩

/-- Files in a directory, between them one beside it, and one that is added again
    by another path. -/
def foundCalls : List (Text × Text) :=
  [(text "lib/a.js", text "old"), (text "b.js", text "x"), (text "/p/lib/c.js", text "y"),
   (text "./lib/../lib/a.js", text "new")]

theorem walk_finds_added_sample :
    (∃ es, Walk.events (build (text "/p/") (additions foundCalls)).tree (.ofList []) 6
        (text "/p/") = some es ∧
      (Walk.stats es).files = [text "/p/lib/a.js", text "/p/lib/c.js", text "/p/b.js"] ∧
      (Walk.stats es).files.Pairwise
        (Path.Precedes (foundCalls.map fun c => (empty (text "/p/")).resolve c.1))) ∧
    (build (text "/p/") (additions foundCalls)).read (text "/p/lib/a.js") = .ok (text "new") := by
  have habs : Path.isAbsolute (text "/p/") = true := by decide
  have hbelow : ∀ c ∈ foundCalls, Path.Below ((empty (text "/p/")).resolve c.1) (text "/p/") := by
    decide +kernel
  have hnot : ∀ c ∈ foundCalls, ∀ d ∈ foundCalls,
      ¬ Path.Below ((empty (text "/p/")).resolve c.1) ((empty (text "/p/")).resolve d.1) := by
    decide +kernel
  obtain ⟨_, visited, ⟨n, hn⟩, _, _, hsorted, _⟩ := walk_finds_added habs foundCalls hbelow hnot
  have hrun : ∃ es, Walk.events (build (text "/p/") (additions foundCalls)).tree (.ofList []) 6
      (text "/p/") = some es ∧
      (Walk.stats es).files = [text "/p/lib/a.js", text "/p/lib/c.js", text "/p/b.js"] :=
    ⟨_, rfl, by decide +kernel⟩
  obtain ⟨es, hes, hfiles⟩ := hrun
  -- With more steps the walk is the same.
  obtain ⟨es', hes', _, hvisited, _⟩ := hn (n + 6) (Nat.le_add_right n 6)
  have hmore := Walk.run_mono (Nat.le_add_left 6 n) hes
  obtain rfl : es = es' := Option.some.inj (hmore.symm.trans hes')
  exact ⟨⟨es, hes, hfiles, hvisited ▸ hsorted⟩, by rfl⟩

end ImportFinder.Memory
