import ImportFinder.Proofs.Search.Found

/-!
# The consistency of results

The records, the skips, the files that were reached and the totals of a result
come from different parts of a search and are put together at its end. They
agree with each other (`Search.Consistent`): records stand in the order in which
their files were reached, their matches on increasing lines of these files; the
totals count what is in the lists; and each file that was reached and passes the
list of extensions has exactly one fate (`Search.Fate`).

For the last, a file must not be taken for a directory that could not be listed.
It is not, as no two events of a walk happen at the same path.
-/

namespace ImportFinder.Search

/-- What may become of a file that a search reaches. -/
inductive Fate
  /-- It has a record. -/
  | recorded
  /-- It could not be read. -/
  | skipped
  /-- It was read, and no line references the target. -/
  | silent

/-- What became of the file at a path, as the tree and the result of the search
    tell. -/
def Befalls (tree : Tree) (r : Request) (found : Result) (path : Text) : Fate → Prop
  | .recorded => ∃ f ∈ found.files, f.path = path
  | .skipped => ∃ s ∈ found.skipped, s.path = path
  | .silent => ∃ content, tree.read path = .ok content ∧
      ∀ line ∈ Text.lines content, Matching.isReference r.mode r.target.name line = false

/-- The parts of a result agree with each other, and with the tree. -/
structure Consistent (tree : Tree) (r : Request) (found : Result) : Prop where
  /-- Records stand in the order in which their files were reached. -/
  files_sublist : (found.files.map (·.path)).Sublist found.visited
  /-- Records have matches, on increasing lines of the file. -/
  hits_lines : ∀ f ∈ found.files, f.hits ≠ [] ∧ (f.hits.map (·.line)).Pairwise (· < ·) ∧
    ∃ content, tree.read f.path = .ok content ∧
      ∀ m ∈ f.hits, 1 ≤ m.line ∧ m.line ≤ (Text.lines content).length
  filesVisited_eq : found.filesVisited = found.visited.length
  filesWithMatches_eq : found.filesWithMatches = found.files.length
  matchCount_eq : found.matchCount = ((found.files.map (·.hits.length)).sum : Nat)
  unusedCount_eq : found.unusedCount = ((found.files.flatMap (·.hits)).countP (·.unused) : Nat)
  /-- Each file that passes the list of extensions has exactly one fate. -/
  fate : ∀ path ∈ found.visited, Walk.accepts r.extensions (Path.base path) = true →
    ∃! fate, Befalls tree r found path fate

variable {tree : Tree} {id : Text} {r : Request} {path : Text} {es : List Walk.Event}

/-! ### What becomes of a file -/

/-- A file adds a skip if it cannot be read. -/
theorem skip?_eq_some_iff {s : Skip} : skip? tree r path = some s ↔
    ∃ why, tree.read path = .error why ∧
      s = ⟨path, (why.within (text "failed to read file " ++ path)).message⟩ := by
  rw [skip?, scanFile]
  cases tree.read path with
  | error why => simp [eq_comm]
  | ok content => simp

/-- The files that a result skips could not be read. -/
theorem read_of_mem_skips {paths : List Text} {s : Skip} (h : s ∈ paths.filterMap (skip? tree r)) :
    ∃ why, tree.read s.path = .error why := by
  obtain ⟨path, _, hskip⟩ := List.mem_filterMap.1 h
  obtain ⟨why, hread, rfl⟩ := skip?_eq_some_iff.1 hskip
  exact ⟨why, hread⟩

theorem befalls_recorded_iff (hpath : path ∈ Walk.candidates r.extensions es) :
    Befalls tree r (tally tree id r es) path .recorded ↔
      ∃ content, tree.read path = .ok content ∧ scanLines r.mode r.target.name content ≠ [] := by
  constructor
  · rintro ⟨f, hf, rfl⟩
    obtain ⟨_, content, hread, hne, _⟩ := mem_files_tally_iff.1 hf
    exact ⟨content, hread, hne⟩
  · rintro ⟨content, hread, hne⟩
    refine ⟨{ path, listed := some (scanLines r.mode r.target.name content) }, ?_, rfl⟩
    exact mem_files_tally_iff.2 ⟨hpath, content, hread, hne, rfl⟩

theorem befalls_silent_iff : Befalls tree r (tally tree id r es) path .silent ↔
    ∃ content, tree.read path = .ok content ∧ scanLines r.mode r.target.name content = [] := by
  simp only [Befalls, scanLines_eq_nil_iff]

/-- A file is not taken for a directory that could not be listed. -/
theorem not_mem_stats_skipped (hnodup : (es.map Walk.Event.path).Nodup) {name : Text}
    (hev : .file path name ∈ es) : ∀ s ∈ (Walk.stats es).skipped, s.path ≠ path := by
  rintro s hs rfl
  -- Both would be events at the same path.
  obtain ⟨ev, hmem, hskip⟩ := List.mem_filterMap.1 hs
  cases ev with
  | unreadable dir why =>
    obtain rfl := Option.some.inj hskip
    exact absurd (List.inj_on_of_nodup_map hnodup hmem hev rfl) (by simp)
  | _ => simp [Walk.Event.skip?] at hskip

theorem befalls_skipped_iff (hnodup : (es.map Walk.Event.path).Nodup)
    (hpath : path ∈ Walk.candidates r.extensions es) :
    Befalls tree r (tally tree id r es) path .skipped ↔ ∃ why, tree.read path = .error why := by
  constructor
  · rintro ⟨s, hs, rfl⟩
    -- Directories that could not be listed come first, then files.
    rcases List.mem_append.1 hs with hs | hs
    · obtain ⟨name, hev, _⟩ := mem_candidates_iff.1 hpath
      exact absurd rfl (not_mem_stats_skipped hnodup hev s hs)
    · exact read_of_mem_skips hs
  · rintro ⟨why, hread⟩
    have hskip := (skip?_eq_some_iff (r := r)).2 ⟨why, hread, rfl⟩
    exact ⟨_, List.mem_append_right _ (List.mem_filterMap.2 ⟨path, hpath, hskip⟩), rfl⟩

/-- The fate of a file is decided by reading it. -/
def fateOf (tree : Tree) (r : Request) (path : Text) : Fate :=
  match tree.read path with
  | .error _ => .skipped
  | .ok content => if scanLines r.mode r.target.name content = [] then .silent else .recorded

theorem befalls_iff (hnodup : (es.map Walk.Event.path).Nodup)
    (hpath : path ∈ Walk.candidates r.extensions es) (fate : Fate) :
    Befalls tree r (tally tree id r es) path fate ↔ fate = fateOf tree r path := by
  rw [fateOf]
  cases fate with
  | recorded =>
    rw [befalls_recorded_iff hpath]
    cases tree.read path <;> simp
  | skipped =>
    rw [befalls_skipped_iff hnodup hpath]
    cases tree.read path with
    | error why => simp
    | ok content => by_cases hnil : scanLines r.mode r.target.name content = [] <;> simp [hnil]
  | silent =>
    rw [befalls_silent_iff]
    cases tree.read path <;> simp

/-! ### The parts of a result -/

/-- Without a mode, what becomes of a file is as in the default one. -/
theorem befalls_carriedOut {found : Result} (fate : Fate) :
    Befalls tree (carriedOut r) found path fate ↔ Befalls tree r found path fate := by
  cases fate with
  | silent => simp only [Befalls, carriedOut, isReference_orDefault]
  | _ => rfl

/-- The matches of a record are on increasing lines of its file. -/
theorem lines_of_mem_files {f : FileRecord} (hf : f ∈ (tally tree id r es).files) :
    f.hits ≠ [] ∧ (f.hits.map (·.line)).Pairwise (· < ·) ∧
      ∃ content, tree.read f.path = .ok content ∧
        ∀ m ∈ f.hits, 1 ≤ m.line ∧ m.line ≤ (Text.lines content).length := by
  obtain ⟨_, content, hread, hne, hlisted⟩ := mem_files_tally_iff.1 hf
  have hhits : f.hits = scanLines r.mode r.target.name content := by
    rw [FileRecord.hits, hlisted]
    rfl
  rw [hhits]
  exact ⟨hne, pairwise_line_scanLines, content, hread, fun m hm => line_le_of_mem_scanLines hm⟩

/-- A file that was reached and whose name passes the list of extensions is
    scanned. -/
theorem mem_candidates_of_mem_visited
    (hbase : ∀ path name, .file path name ∈ es → Path.base path = name)
    (hpath : path ∈ (tally tree id r es).visited)
    (hacc : Walk.accepts r.extensions (Path.base path) = true) :
    path ∈ Walk.candidates r.extensions es := by
  obtain ⟨⟨_, name⟩, hfile, rfl⟩ := List.mem_map.1 hpath
  obtain ⟨ev, hev, heq⟩ := List.mem_filterMap.1 hfile
  obtain rfl := file?_eq_some_iff.1 heq
  exact mem_candidates_iff.2 ⟨name, hev, hbase _ _ hev ▸ hacc⟩

/-- The parts of the result of a successful search agree with each other. -/
theorem consistent_of_answers (hf : tree.Finite r.root) (hn : tree.WellNamed) {report : Report}
    (h : Answers tree id r (.ok report)) : Consistent tree r report.result := by
  rw [h.result_eq hf]
  exact {
    files_sublist := sublist_files_visited _
    hits_lines := fun f hmem => lines_of_mem_files hmem
    filesVisited_eq := rfl
    filesWithMatches_eq := rfl
    matchCount_eq := rfl
    unusedCount_eq := by
      rw [List.countP_flatMap]
      rfl
    fate := fun path hpath hacc => by
      -- The file is scanned, and reading it decides its fate.
      have hcand := mem_candidates_of_mem_visited
        (fun _ _ => Walk.base_of_file_mem hn hf) hpath hacc
      have hiff (fate : Fate) :
          Befalls tree (carriedOut r) (tally tree id (carriedOut r) _) path fate ↔ _ :=
        befalls_iff (Walk.nodup_paths hn hf) hcand fate
      refine ⟨fateOf tree (carriedOut r) path, ?_, fun fate hfate => ?_⟩
      · exact (befalls_carriedOut _).1 ((hiff _).2 rfl)
      · exact (hiff fate).1 ((befalls_carriedOut fate).2 hfate) }

theorem consistent_of_answers_sample : ∃ report,
    Answers Tree.sample [] sampleRequest (.ok report) ∧
      Consistent Tree.sample sampleRequest report.result := by
  obtain ⟨report, h, _⟩ := exists_answers_sample
  exact ⟨report, h, consistent_of_answers Tree.finite_sample Tree.wellNamed_sample h⟩

end ImportFinder.Search
