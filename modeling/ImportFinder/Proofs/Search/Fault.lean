import ImportFinder.Proofs.Search.Consistency
import ImportFinder.Proofs.Walk.Fault

/-!
# A search past a fault

A search succeeds whatever it cannot read on its way, and one more fault costs
no more than what lies behind it (`isolates_faults`).

If a file can no longer be read, then the walk is the same, the record of the
file is missing, and the file is listed among the skipped ones (`FileLost`). If a
directory can no longer be listed, then what was reached through it is missing
and the directory is listed among the skipped ones (`DirectoryLost`). All else is
as before, in the same order: what is missing from a list is filtered out of it
(`tally_filter`), and one entry is put into the list of what was skipped.
-/

namespace ImportFinder.Search

/-- The totals of a result count what is in its lists. -/
structure Counted (found : Result) : Prop where
  filesVisited : found.filesVisited = found.visited.length
  filesWithMatches : found.filesWithMatches = found.files.length
  matchCount : found.matchCount = ((found.files.map (·.hits.length)).sum : Nat)
  unusedCount : found.unusedCount = ((found.files.map (·.unusedCount)).sum : Nat)

/-- One entry more than before is skipped, at some place in the list, for a path
    that was not skipped before. -/
def SkipsOneMore (entry : Skip) (before after : List Skip) : Prop :=
  (∃ front back, before = front ++ back ∧ after = front ++ entry :: back) ∧
    ∀ s ∈ before, s.path ≠ entry.path

/-- The file at a path was scanned: it was reached, its name passes the list of
    extensions, and it could be read. -/
def Scanned (tree : Tree) (extensions : List Text) (found : Result) (path : Text) : Prop :=
  path ∈ found.visited ∧ Walk.accepts extensions (Path.base path) = true ∧
    ∃ content, tree.read path = .ok content

/-- What a search finds before and after the file at a path can no longer be
    read. -/
structure FileLost (tree : Tree) (extensions : List Text) (path : Text) (why : Failure)
    (before after : Result) : Prop where
  visited : after.visited = before.visited
  dirsVisited : after.dirsVisited = before.dirsVisited
  files : after.files = before.files.filter fun f => f.path ≠ path
  skipped : Scanned tree extensions before path → SkipsOneMore
    ⟨path, (why.within (text "failed to read file " ++ path)).message⟩ before.skipped after.skipped
  skipped_paths : ¬ Scanned tree extensions before path →
    after.skipped.map (·.path) = before.skipped.map (·.path)
  counted : Counted after

open Classical in
/-- What a search finds before and after the directory at a path can no longer
    be listed. -/
structure DirectoryLost (tree : Tree) (ignore : IgnoreSet) (root dir : Text) (why : Failure)
    (before after : Result) : Prop where
  visited : after.visited = before.visited.filter fun path => ¬ tree.Through root dir path
  files : after.files = before.files.filter fun f => ¬ tree.Through root dir f.path
  skipped : SkipsOneMore ⟨dir, why.message⟩
    (before.skipped.filter fun s => ¬ tree.Through root dir s.path) after.skipped
  /-- The directories that the walk lists from there on are not counted any
      more. -/
  dirsVisited : before.dirsVisited =
    after.dirsVisited + (Walk.stats (Walk.descend tree ignore dir)).dirs
  counted : Counted after

variable {tree : Tree} {id : Text} {r : Request} {path dir : Text} {es : List Walk.Event}

theorem counted_tally : Counted (tally tree id r es) := ⟨rfl, rfl, rfl, rfl⟩

/-! ### A file that cannot be read -/

theorem record?_of_error {why : Failure} (h : tree.read path = .error why) :
    record? tree r path = none := by
  rw [record?, scanFile, h]

theorem skip?_of_ok {content : Text} (h : tree.read path = .ok content) :
    skip? tree r path = none := by
  rw [skip?, scanFile, h]

theorem skip?_of_error {why : Failure} (h : tree.read path = .error why) :
    skip? tree r path = some ⟨path, (why.within (text "failed to read file " ++ path)).message⟩ :=
  skip?_eq_some_iff.2 ⟨why, h, rfl⟩

/-- The records are those of the other files. -/
theorem records_failRead (paths : List Text) (why : Failure) :
    paths.filterMap (record? (tree.failRead path why) r) =
      (paths.filterMap (record? tree r)).filter fun f => f.path ≠ path := by
  have htrace : ∀ p f, record? tree r p = some f → f.path = p := fun _ _ => path_of_record?
  rw [← filterMap_filter_of_trace htrace (decide <| · ≠ path), List.filterMap_filter]
  refine List.filterMap_congr fun p _ => ?_
  by_cases hp : p = path
  · rw [hp, record?_of_error Tree.read_failRead_self]
    simp
  · rw [record?_congr (Tree.read_failRead_of_ne hp)]
    simp [hp]

/-- The skips of other files are as before. -/
theorem skips_failRead {paths : List Text} (h : path ∉ paths) (why : Failure) :
    paths.filterMap (skip? (tree.failRead path why) r) = paths.filterMap (skip? tree r) :=
  List.filterMap_congr fun _ hp =>
    skip?_congr (Tree.read_failRead_of_ne fun heq => h (heq ▸ hp))

/-- If the file could not be read before, the same paths are skipped. -/
theorem paths_skips_failRead {paths : List Text}
    (h : path ∈ paths → ∃ other, tree.read path = .error other) (why : Failure) :
    (paths.filterMap (skip? (tree.failRead path why) r)).map (·.path) =
      (paths.filterMap (skip? tree r)).map (·.path) := by
  rw [List.map_filterMap, List.map_filterMap]
  refine List.filterMap_congr fun p hp => ?_
  by_cases heq : p = path
  · subst heq
    obtain ⟨other, hother⟩ := h hp
    rw [skip?_of_error Tree.read_failRead_self, skip?_of_error hother]
    rfl
  · rw [skip?_congr (Tree.read_failRead_of_ne heq)]

/-- The files that are scanned were reached, and their names pass the list of
    extensions. -/
theorem mem_candidates_iff_visited
    (hbase : ∀ path name, .file path name ∈ es → Path.base path = name) :
    path ∈ Walk.candidates r.extensions es ↔ path ∈ (tally tree id r es).visited ∧
      Walk.accepts r.extensions (Path.base path) = true := by
  constructor
  · intro hpath
    obtain ⟨name, hev, hacc⟩ := mem_candidates_iff.1 hpath
    refine ⟨?_, by rwa [hbase path name hev]⟩
    exact List.mem_map.2 ⟨(path, name), List.mem_filterMap.2 ⟨_, hev, rfl⟩, rfl⟩
  · rintro ⟨hpath, hacc⟩
    exact mem_candidates_of_mem_visited hbase hpath hacc

theorem sublist_candidates_paths (extensions : List Text) (es : List Walk.Event) :
    (Walk.candidates extensions es).Sublist (es.map Walk.Event.path) :=
  (List.filter_sublist.map _).trans (map_filterMap_sublist (fun _ _ => fst_of_file?) es)

/-- Where a file that was scanned is read no more, one more file is skipped. -/
theorem skipsOneMore_failRead (hnodup : (es.map Walk.Event.path).Nodup)
    (hpath : path ∈ Walk.candidates r.extensions es) {content : Text}
    (hread : tree.read path = .ok content) (id' : Text) (why : Failure) :
    SkipsOneMore ⟨path, (why.within (text "failed to read file " ++ path)).message⟩
      (tally tree id r es).skipped (tally (tree.failRead path why) id' r es).skipped := by
  obtain ⟨a, b, hab⟩ := List.append_of_mem hpath
  have hnot : path ∉ a ++ b := by
    have hpaths := hnodup.sublist (sublist_candidates_paths r.extensions es)
    rw [hab, List.nodup_middle, List.nodup_cons] at hpaths
    exact hpaths.1
  rw [List.mem_append, not_or] at hnot
  refine ⟨⟨(Walk.stats es).skipped ++ a.filterMap (skip? tree r), b.filterMap (skip? tree r),
    ?_, ?_⟩, fun s hs => ?_⟩
  · simp only [tally, hab, List.filterMap_append, List.filterMap_cons, skip?_of_ok hread,
      List.append_assoc]
  · simp only [tally, hab, List.filterMap_append, List.filterMap_cons,
      skip?_of_error Tree.read_failRead_self, skips_failRead hnot.1, skips_failRead hnot.2,
      List.append_assoc]
  · -- The file is neither a directory that could not be listed nor an unreadable file.
    obtain ⟨name, hev, _⟩ := mem_candidates_iff.1 hpath
    rcases List.mem_append.1 hs with hs | hs
    · exact not_mem_stats_skipped hnodup hev s hs
    · rintro rfl
      obtain ⟨other, hother⟩ := read_of_mem_skips hs
      rw [hread] at hother
      exact absurd hother (by simp)

/-- What is lost when a file can no longer be read, if no two events happen at
    the same path. -/
theorem fileLost_tally (hnodup : (es.map Walk.Event.path).Nodup)
    (hbase : ∀ path name, .file path name ∈ es → Path.base path = name) (id' : Text)
    (why : Failure) :
    FileLost tree r.extensions path why (tally tree id r es)
      (tally (tree.failRead path why) id' r es) where
  visited := rfl
  dirsVisited := rfl
  files := records_failRead _ why
  skipped := by
    rintro ⟨hvisited, hacc, content, hread⟩
    have hpath := (mem_candidates_iff_visited hbase).2 ⟨hvisited, hacc⟩
    exact skipsOneMore_failRead hnodup hpath hread id' why
  skipped_paths := by
    intro hnot
    -- A file that was not scanned is no candidate, or could not be read before.
    have hunread : path ∈ Walk.candidates r.extensions es →
        ∃ other, tree.read path = .error other := by
      intro hpath
      obtain ⟨hvisited, hacc⟩ := (mem_candidates_iff_visited hbase).1 hpath
      cases hread : tree.read path with
      | error other => exact ⟨other, rfl⟩
      | ok content => exact absurd ⟨hvisited, hacc, content, hread⟩ hnot
    simp only [tally, List.map_append, paths_skips_failRead hunread]
  counted := counted_tally

/-! ### A directory that cannot be listed -/

theorem candidates_filter (keep : Text → Bool) (extensions : List Text) (es : List Walk.Event) :
    Walk.candidates extensions (es.filter fun ev => keep ev.path) =
      (Walk.candidates extensions es).filter keep := by
  rw [Walk.candidates, filterMap_filter_of_trace (fun _ _ => fst_of_file?) keep, Walk.candidates,
    List.filter_map, List.filter_filter, List.filter_filter]
  simp [Bool.and_comm]

theorem path_of_event_skip? {ev : Walk.Event} {s : Skip} (h : ev.skip? = some s) :
    s.path = ev.path := by
  cases ev with
  | unreadable dir why =>
    obtain rfl := Option.some.inj h
    rfl
  | _ => simp [Walk.Event.skip?] at h

theorem path_of_skip? {s : Skip} (h : skip? tree r path = some s) : s.path = path := by
  obtain ⟨_, _, rfl⟩ := skip?_eq_some_iff.1 h
  rfl

/-- The lists of a result may be filtered by paths before or after they are read
    off the events. -/
theorem tally_filter (tree : Tree) (r : Request) (id id' : Text) (keep : Text → Bool)
    (es : List Walk.Event) :
    (tally tree id' r (es.filter fun ev => keep ev.path)).visited =
      (tally tree id r es).visited.filter keep ∧
    (tally tree id' r (es.filter fun ev => keep ev.path)).files =
      ((tally tree id r es).files.filter fun f => keep f.path) ∧
    (tally tree id' r (es.filter fun ev => keep ev.path)).skipped =
      (tally tree id r es).skipped.filter fun s => keep s.path := by
  have htrace : ∀ p f, record? tree r p = some f → f.path = p := fun _ _ => path_of_record?
  have htrace' : ∀ p s, skip? tree r p = some s → s.path = p := fun _ _ => path_of_skip?
  refine ⟨?_, ?_, ?_⟩
  · simp only [tally, Walk.stats]
    rw [filterMap_filter_of_trace (fun _ _ => fst_of_file?) keep, List.filter_map]
    rfl
  · simp only [tally, candidates_filter]
    exact filterMap_filter_of_trace htrace keep _
  · simp only [tally, Walk.stats, candidates_filter, List.filter_append]
    rw [filterMap_filter_of_trace (fun _ _ => path_of_event_skip?) keep,
      filterMap_filter_of_trace htrace' keep]

/-- What is skipped was not listed. -/
theorem exists_event_of_mem_skipped {s : Skip} (h : s ∈ (tally tree id r es).skipped) :
    ∃ ev ∈ es, ev.path = s.path ∧ ev.isListed = false := by
  rcases List.mem_append.1 h with h | h
  · obtain ⟨ev, hev, hskip⟩ := List.mem_filterMap.1 h
    refine ⟨ev, hev, (path_of_event_skip? hskip).symm, ?_⟩
    cases ev with
    | unreadable dir why => rfl
    | _ => simp [Walk.Event.skip?] at hskip
  · obtain ⟨path, hpath, hskip⟩ := List.mem_filterMap.1 h
    obtain ⟨name, hev, _⟩ := mem_candidates_iff.1 hpath
    exact ⟨_, hev, (path_of_skip? hskip).symm, rfl⟩

/-- A directory that is skipped and not listed does not change what else is read
    off the events. -/
theorem tally_unreadable (tree : Tree) (r : Request) (id id' : Text)
    (front back : List Walk.Event) (dir : Text) (why : Failure) :
    (tally tree id' r (front ++ .unreadable dir why :: back)).visited =
      (tally tree id r (front ++ .listed dir :: back)).visited ∧
    (tally tree id' r (front ++ .unreadable dir why :: back)).files =
      (tally tree id r (front ++ .listed dir :: back)).files ∧
    ∃ a b, (tally tree id r (front ++ .listed dir :: back)).skipped = a ++ b ∧
      (tally tree id' r (front ++ .unreadable dir why :: back)).skipped =
        a ++ ⟨dir, why.message⟩ :: b := by
  have hfile : (front ++ .unreadable dir why :: back).filterMap Walk.Event.file? =
      (front ++ .listed dir :: back).filterMap Walk.Event.file? := by
    rw [List.filterMap_append, List.filterMap_append]
    rfl
  refine ⟨?_, ?_, front.filterMap Walk.Event.skip?, back.filterMap Walk.Event.skip? ++
    (Walk.candidates r.extensions (front ++ .listed dir :: back)).filterMap (skip? tree r), ?_, ?_⟩
  · simp only [tally, Walk.stats, hfile]
  · simp only [tally, Walk.candidates, hfile]
  · simp only [tally, Walk.stats, List.filterMap_append, List.append_assoc]
    rfl
  · simp only [tally, Walk.stats, Walk.candidates, hfile, List.filterMap_append,
      List.append_assoc]
    rfl

/-- What is lost when a directory can no longer be listed. -/
theorem directoryLost_tally {ignore : IgnoreSet} {root : Text} (hn : tree.WellNamed)
    (hf : tree.Finite root) (h : .listed dir ∈ Walk.descend tree ignore root) (id id' : Text)
    (why : Failure) :
    DirectoryLost tree ignore root dir why (tally tree id r (Walk.descend tree ignore root))
      (tally tree id' r (Walk.descend (tree.failList dir why) ignore root)) := by
  classical
  obtain ⟨front, back, hold, hnew, hfilter⟩ := Walk.exists_cut_through hn hf h why
  have hkept := hfilter (fun path => ¬ tree.Through root dir path) fun _ => decide_eq_true_iff
  obtain ⟨hvisited, hfiles, hskipped⟩ := tally_filter tree r id id
    (fun path => ¬ tree.Through root dir path) (Walk.descend tree ignore root)
  rw [hkept] at hvisited hfiles hskipped
  obtain ⟨hvisited', hfiles', a, b, hbefore, hafter⟩ :=
    tally_unreadable tree r id id' front back dir why
  rw [hnew]
  exact {
    visited := hvisited'.trans hvisited
    files := hfiles'.trans hfiles
    skipped := by
      refine ⟨⟨a, b, hskipped.symm.trans hbefore, hafter⟩, fun s hs heq => ?_⟩
      -- The directory was listed, and nothing else happened at its path.
      obtain ⟨ev, hev, hpath, hlisted⟩ :=
        exists_event_of_mem_skipped (List.mem_of_mem_filter hs)
      have hsame : ev = .listed dir :=
        List.inj_on_of_nodup_map (Walk.nodup_paths hn hf) hev h (hpath.trans heq)
      rw [hsame] at hlisted
      exact absurd hlisted (by simp [Walk.Event.isListed])
    dirsVisited := by
      simp only [tally, Walk.stats, hold, List.countP_append, List.countP_cons]
      simp [Walk.Event.isListed]
      omega
    counted := counted_tally }

/-! ### Two searches -/

variable {report : Report}

/-- A search that succeeds still does when one more file cannot be read. -/
theorem exists_fileLost (hf : tree.Finite r.root) (hn : tree.WellNamed)
    (h : Answers tree id r (.ok report)) (hpath : path ≠ r.ignoreFile) (id' : Text)
    (why : Failure) : ∃ after, Answers (tree.failRead path why) id' r (.ok after) ∧
      FileLost tree r.extensions path why report.result after.result := by
  have hproblem : problem (tree.failRead path why) r = none :=
    (problem_congr rfl).trans h.problem_eq
  have hignore : ignoreSet (tree.failRead path why) r = ignoreSet tree r :=
    ignoreSet_congr (Tree.read_failRead_of_ne (Ne.symm hpath))
  -- The walk does not read files, so it is the same.
  have hf' : (tree.failRead path why).Finite r.root := hf
  obtain ⟨after, hafter, hresult⟩ := exists_answers_ok hf' hproblem id'
  refine ⟨after, hafter, ?_⟩
  rw [h.result_eq hf, hresult, hignore]
  exact fileLost_tally (r := carriedOut r) (Walk.nodup_paths hn hf)
    (fun _ _ => Walk.base_of_file_mem hn hf) id' why

/-- A search that succeeds still does when one more directory cannot be
    listed. -/
theorem exists_directoryLost (hf : tree.Finite r.root) (hn : tree.WellNamed)
    (h : Answers tree id r (.ok report)) (dir id' : Text) (why : Failure) :
    ∃ after, Answers (tree.failList dir why) id' r (.ok after) ∧
      (Walk.Happens tree (ignoreSet tree r) r.root (.listed dir) →
        DirectoryLost tree (ignoreSet tree r) r.root dir why report.result after.result) ∧
      ((∀ ev, Walk.Happens tree (ignoreSet tree r) r.root ev → ev.directory? ≠ some dir) →
        after.result = { report.result with sessionId := id' }) := by
  have hproblem : problem (tree.failList dir why) r = none :=
    (problem_congr rfl).trans h.problem_eq
  have hignore : ignoreSet (tree.failList dir why) r = ignoreSet tree r := ignoreSet_congr rfl
  obtain ⟨after, hafter, hresult⟩ := exists_answers_ok hf.failList hproblem id'
  rw [hignore, tally_congr fun _ => rfl] at hresult
  refine ⟨after, hafter, fun hlisted => ?_, fun hnever => ?_⟩
  · rw [h.result_eq hf, hresult]
    exact directoryLost_tally hn hf ((Walk.happens_iff hf).1 hlisted) id id' why
  · -- Every directory to which the walk comes is listed as before.
    have hsame : Walk.descend (tree.failList dir why) (ignoreSet tree r) r.root =
        Walk.descend tree (ignoreSet tree r) r.root :=
      Walk.descend_congr hf hf.failList fun ev hev sub hsub => Tree.list_failList_of_ne
        fun heq => hnever ev ((Walk.happens_iff hf).2 hev) (heq ▸ hsub)
    rw [h.result_eq hf, hresult, hsame]
    rfl

/-- A search that succeeds still does when one more file, other than the ignore
    file, cannot be read, or one more directory cannot be listed. Then the file,
    or what was reached through the directory, is missing, and it is skipped;
    nothing else changes. -/
theorem isolates_faults (hf : tree.Finite r.root) (hn : tree.WellNamed)
    (h : Answers tree id r (.ok report)) (id' : Text) (why : Failure) :
    (∀ path, path ≠ r.ignoreFile → ∃ after, Answers (tree.failRead path why) id' r (.ok after) ∧
      FileLost tree r.extensions path why report.result after.result) ∧
    ∀ dir, ∃ after, Answers (tree.failList dir why) id' r (.ok after) ∧
      (Walk.Happens tree (ignoreSet tree r) r.root (.listed dir) →
        DirectoryLost tree (ignoreSet tree r) r.root dir why report.result after.result) ∧
      ((∀ ev, Walk.Happens tree (ignoreSet tree r) r.root ev → ev.directory? ≠ some dir) →
        after.result = { report.result with sessionId := id' }) :=
  ⟨fun _ hpath => exists_fileLost hf hn h hpath id' why,
    fun dir => exists_directoryLost hf hn h dir id' why⟩

/-- In the small tree, first the only file with a match and then its directory
    are lost. -/
theorem isolates_faults_sample : ∃ before a b,
    Answers Tree.sample [] sampleRequest (.ok before) ∧
    Answers (Tree.sample.failRead (text "p/lib/b.js") (.plain (text "gone"))) [] sampleRequest
      (.ok a) ∧
    FileLost Tree.sample [] (text "p/lib/b.js") (.plain (text "gone")) before.result a.result ∧
    a.result.files = [] ∧
    a.result.skipped.map (·.path) = [text "p/locked", text "p/a.js", text "p/lib/b.js"] ∧
    Answers (Tree.sample.failList (text "p/lib") (.plain (text "gone"))) [] sampleRequest (.ok b) ∧
    DirectoryLost Tree.sample (ignoreSet Tree.sample sampleRequest) (text "p") (text "p/lib")
      (.plain (text "gone")) before.result b.result ∧
    b.result.visited = [text "p/a.js"] ∧
    b.result.skipped.map (·.path) = [text "p/lib", text "p/locked", text "p/a.js"] := by
  obtain ⟨before, hbefore, _⟩ := exists_answers_sample
  obtain ⟨hread, hlist⟩ := isolates_faults Tree.finite_sample Tree.wellNamed_sample hbefore []
    (.plain (text "gone"))
  obtain ⟨a, ha, hfile⟩ := hread (text "p/lib/b.js") (by decide)
  obtain ⟨b, hb, hdir, _⟩ := hlist (text "p/lib")
  have hhappens : Walk.Happens Tree.sample (ignoreSet Tree.sample sampleRequest)
      sampleRequest.root (.listed (text "p/lib")) :=
    ⟨9, _, rfl, List.mem_of_getElem? (i := 2) rfl⟩
  have ha' := answers_of_search (rfl : search
    (Tree.sample.failRead (text "p/lib/b.js") (.plain (text "gone"))) [] 9 sampleRequest = some _)
  have hb' := answers_of_search (rfl : search
    (Tree.sample.failList (text "p/lib") (.plain (text "gone"))) [] 9 sampleRequest = some _)
  obtain rfl := Except.ok.inj (ha.unique ha')
  obtain rfl := Except.ok.inj (hb.unique hb')
  exact ⟨before, _, _, hbefore, ha, hfile, by decide +kernel, by decide +kernel, hb, hdir hhappens,
    by decide +kernel, by decide +kernel⟩

end ImportFinder.Search
