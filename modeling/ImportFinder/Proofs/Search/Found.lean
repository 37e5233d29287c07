import ImportFinder.Proofs.Scan
import ImportFinder.Proofs.Search.Answer
import ImportFinder.Proofs.Walk.Reach

/-!
# What a search finds

A successful search has a record for exactly the files that it should have one
for (`mem_files_iff`): those to which names lead from the root that are not
ignored, through directories that can be listed, whose name passes the list of
extensions, that can be read, and of which at least one line references the
target. The record has one match for each of these lines, with the number and
the trimmed text of the line. No file has two records.
-/

namespace ImportFinder.Search

variable {tree : Tree} {id : Text} {r : Request} {path : Text}

/-- A file adds a record if it can be read and a line references the target. -/
theorem record?_eq_some_iff {f : FileRecord} : record? tree r path = some f ↔
    ∃ content, tree.read path = .ok content ∧ scanLines r.mode r.target.name content ≠ [] ∧
      f = { path, listed := some (scanLines r.mode r.target.name content) } := by
  rw [record?, scanFile]
  cases hread : tree.read path with
  | error why => simp
  | ok content =>
    by_cases hnil : scanLines r.mode r.target.name content = []
    · simp [hits_scan, hnil]
    · simp [FileRecord.hits, hnil, scan_of_ne_nil hnil, eq_comm (b := f)]

theorem file?_eq_some_iff {ev : Walk.Event} {name : Text} :
    ev.file? = some (path, name) ↔ ev = .file path name := by
  cases ev <;> simp [Walk.Event.file?]

/-- The files that are scanned are those whose names pass the list of
    extensions. -/
theorem mem_candidates_iff {extensions : List Text} {es : List Walk.Event} :
    path ∈ Walk.candidates extensions es ↔
      ∃ name, .file path name ∈ es ∧ Walk.accepts extensions name = true := by
  simp [Walk.candidates, file?_eq_some_iff]

theorem scanLines_carriedOut (content : Text) :
    scanLines (carriedOut r).mode (carriedOut r).target.name content =
      (referenceLines r.mode r.target.name content).map fun (line, number) =>
        matchOfLine content number line := by
  rw [scanLines_eq, referenceLines, referenceLines]
  simp only [carriedOut, isReference_orDefault]

/-! ### Lists of a result -/

/-- The records of a result are those of the files that were scanned. -/
theorem mem_files_tally_iff {es : List Walk.Event} {f : FileRecord} :
    f ∈ (tally tree id r es).files ↔ f.path ∈ Walk.candidates r.extensions es ∧
      ∃ content, tree.read f.path = .ok content ∧ scanLines r.mode r.target.name content ≠ [] ∧
        f.listed = some (scanLines r.mode r.target.name content) := by
  constructor
  · intro hf
    obtain ⟨path, hpath, hrecord⟩ := List.mem_filterMap.1 hf
    obtain ⟨content, hread, hne, rfl⟩ := record?_eq_some_iff.1 hrecord
    exact ⟨hpath, content, hread, hne, rfl⟩
  · rintro ⟨hpath, content, hread, hne, hlisted⟩
    refine List.mem_filterMap.2 ⟨f.path, hpath, record?_eq_some_iff.2 ⟨content, hread, hne, ?_⟩⟩
    rw [← hlisted]

/-- What is picked from a list and can be traced back stands in the order of the
    list. -/
theorem map_filterMap_sublist {α β γ : Type} {g : α → Option β} {back : β → γ} {see : α → γ}
    (h : ∀ a b, g a = some b → back b = see a) (l : List α) :
    ((l.filterMap g).map back).Sublist (l.map see) := by
  induction l with
  | nil => exact List.Sublist.refl _
  | cons a l ih =>
    rw [List.filterMap_cons]
    cases hg : g a with
    | none => exact ih.cons _
    | some b =>
      rw [List.map_cons, List.map_cons, h a b hg]
      exact ih.cons_cons _

/-- What is picked from a list and can be traced back may be filtered before or
    after it is picked. -/
theorem filterMap_filter_of_trace {α β γ : Type} {g : α → Option β} {back : β → γ} {see : α → γ}
    (h : ∀ a b, g a = some b → back b = see a) (keep : γ → Bool) (l : List α) :
    (l.filter fun a => keep (see a)).filterMap g =
      (l.filterMap g).filter fun b => keep (back b) := by
  rw [List.filterMap_filter, List.filter_filterMap]
  refine List.filterMap_congr fun a _ => ?_
  cases hg : g a with
  | none => simp
  | some b => simp [Option.filter, h a b hg]

theorem path_of_record? {f : FileRecord} (h : record? tree r path = some f) : f.path = path := by
  obtain ⟨_, _, _, rfl⟩ := record?_eq_some_iff.1 h
  rfl

/-- Records stand in the order of their files. -/
theorem sublist_map_path_records (paths : List Text) :
    ((paths.filterMap (record? tree r)).map (·.path)).Sublist paths := by
  have htrace : ∀ path f, record? tree r path = some f → f.path = path := fun _ _ => path_of_record?
  simpa using map_filterMap_sublist htrace paths

/-- The records of a result stand in the order in which it lists the files that
    were reached. -/
theorem sublist_files_visited (es : List Walk.Event) :
    ((tally tree id r es).files.map (·.path)).Sublist (tally tree id r es).visited :=
  (sublist_map_path_records _).trans (List.filter_sublist.map _)

theorem fst_of_file? {ev : Walk.Event} {file : Text × Text} (h : ev.file? = some file) :
    file.1 = ev.path := by
  rw [file?_eq_some_iff.1 h]
  rfl

/-- The files that were reached stand in the order of the events. -/
theorem sublist_visited_paths (es : List Walk.Event) :
    (tally tree id r es).visited.Sublist (es.map Walk.Event.path) :=
  Walk.sublist_files_paths es

/-! ### Soundness and completeness -/

theorem mem_records_iff {dir : Text} {ignore : IgnoreSet} (hf : tree.Finite dir) {f : FileRecord} :
    f ∈ (tally tree id r (Walk.descend tree ignore dir)).files ↔
      ∃ dirs e content, tree.Reaches dir dirs e ∧
        (∀ n ∈ dirs ++ [e.name], ignore.ignores n = false) ∧ e.kind = .file ∧
        Walk.accepts r.extensions e.name = true ∧ f.path = (dirs ++ [e.name]).foldl Path.join dir ∧
        tree.read f.path = .ok content ∧ scanLines r.mode r.target.name content ≠ [] ∧
        f.listed = some (scanLines r.mode r.target.name content) := by
  rw [mem_files_tally_iff, mem_candidates_iff]
  constructor
  · rintro ⟨⟨name, hev, hacc⟩, content, hread, hne, hlisted⟩
    obtain ⟨dirs, e, hr, hi, hk, rfl, hp⟩ := (Walk.file_mem_descend_iff hf).1 hev
    exact ⟨dirs, e, content, hr, hi, hk, hacc, hp, hread, hne, hlisted⟩
  · rintro ⟨dirs, e, content, hr, hi, hk, hacc, hp, hread, hne, hlisted⟩
    have hev := (Walk.file_mem_descend_iff hf).2 ⟨dirs, e, hr, hi, hk, rfl, hp⟩
    exact ⟨⟨e.name, hev, hacc⟩, content, hread, hne, hlisted⟩

/-- What the matches of a record tell of the lines of its file. -/
theorem map_content_hits {es : List Walk.Event} {f : FileRecord}
    (hf : f ∈ (tally tree id (carriedOut r) es).files) {content : Text}
    (hread : tree.read f.path = .ok content) :
    f.hits.map (fun m => (m.content, m.line)) =
      (referenceLines r.mode r.target.name content).map fun (line, number) =>
        (Text.trim line, number) := by
  obtain ⟨_, content', hread', _, hlisted⟩ := mem_files_tally_iff.1 hf
  obtain rfl : content = content' := Except.ok.inj (hread.symm.trans hread')
  rw [FileRecord.hits, hlisted, scanLines_carriedOut, ← scanLines_eq]
  exact map_content_scanLines

/-- A successful search has a record for exactly the files to which names lead
    that are not ignored, whose names pass the list of extensions, that can be
    read, and of which a line references the target: the record has a match for
    each of these lines, in their order, with its number and its trimmed text.
    No file has two records. -/
theorem mem_files_iff (hf : tree.Finite r.root) (hn : tree.WellNamed) {report : Report}
    (h : Answers tree id r (.ok report)) :
    (∀ f, f ∈ report.result.files ↔ ∃ dirs e content,
      tree.Reaches r.root dirs e ∧
      (∀ n ∈ dirs ++ [e.name],
        (IgnoreSet.load tree r.ignoreFile r.ignore).1.ignores n = false) ∧
      e.kind = .file ∧ Walk.accepts r.extensions e.name = true ∧
      f.path = Path.join r.root (Text.joinWith [Text.slash] (dirs ++ [e.name])) ∧
      tree.read f.path = .ok content ∧ f.hits ≠ [] ∧
      f.listed = some ((referenceLines r.mode r.target.name content).map fun (line, number) =>
        matchOfLine content number line)) ∧
    (∀ f ∈ report.result.files, ∀ content, tree.read f.path = .ok content →
      f.hits.map (fun m => (m.content, m.line)) =
        (referenceLines r.mode r.target.name content).map fun (line, number) =>
          (Text.trim line, number)) ∧
    (report.result.files.map (·.path)).Nodup := by
  rw [h.result_eq hf]
  refine ⟨fun f => (mem_records_iff (r := carriedOut r) hf).trans ?_,
    fun f hmem content hread => map_content_hits hmem hread, ?_⟩
  · refine exists_congr fun dirs => exists_congr fun e => exists_congr fun content => ?_
    rw [scanLines_carriedOut]
    constructor
    · rintro ⟨hr, hi, hk, hacc, hp, hread, hne, hlisted⟩
      refine ⟨hr, hi, hk, hacc, hr.foldl_join hn ▸ hp, hread, ?_, hlisted⟩
      rwa [FileRecord.hits, hlisted]
    · rintro ⟨hr, hi, hk, hacc, hp, hread, hne, hlisted⟩
      refine ⟨hr, hi, hk, hacc, (hr.foldl_join hn).symm ▸ hp, hread, ?_, hlisted⟩
      rwa [FileRecord.hits, hlisted] at hne
  · -- Records stand in the order of the events, of which no two have the same path.
    exact (Walk.nodup_paths hn hf).sublist
      ((sublist_files_visited _).trans (sublist_visited_paths _))

theorem mem_files_iff_sample : ∃ report, Answers Tree.sample [] sampleRequest (.ok report) ∧
    { path := text "p/lib/b.js"
      listed := some [{
        line := 2
        content := text "import u from './u'"
        name := text "u"
        onLine := 2
        inFile := 2
        unused := true }] } ∈ report.result.files := by
  obtain ⟨report, h, _⟩ := exists_answers_sample
  refine ⟨report, h, ?_⟩
  refine ((mem_files_iff Tree.finite_sample Tree.wellNamed_sample h).1 _).2
    ⟨[text "lib"], { name := text "b.js", kind := .file }, _, ?_, by decide +kernel, rfl,
      by decide +kernel, by decide +kernel, rfl, by decide, by decide +kernel⟩
  exact ⟨⟨_, rfl, { name := text "lib", kind := .directory }, by simp, rfl, rfl⟩,
    _, rfl, List.mem_singleton_self _⟩

end ImportFinder.Search
