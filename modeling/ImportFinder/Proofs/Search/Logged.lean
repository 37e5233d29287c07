import ImportFinder.Proofs.Search.Answer
import ImportFinder.Proofs.Walk.Reach

/-!
# What a search logs about its skips

What cannot be read is told twice: in the log when it happens, and in the result
at the end. The two are kept in different places. Directories are logged by the
walk and gathered in its statistics, files are logged by the scan and gathered in
the session, and the result puts all directories before all files, while the log
has them as they come. Still they tell the same: up to its order, the log has one
error for each skip of the result, and besides these none but the one about an
ignore file that exists and cannot be read.

* `errors_handle`: what one event adds to the errors of a log;
* `errors_reportOf`: the errors of a search, in the order of its walk;
* `skips_descend`: the skips of a result, by the directories and files in
  the order of the recursive walk;
* `skips_logged_once`: both together.
-/

namespace ImportFinder

namespace Log

/-- The error messages of a log. -/
def errors (log : List Entry) : List Text := (log.filter (·.level == .error)).map (·.message)

theorem errors_append (log more : List Entry) :
    errors (log ++ more) = errors log ++ errors more := by
  rw [errors, List.filter_append, List.map_append]
  rfl

end Log

/-- The error messages about an ignore file: one if it exists and cannot be
    read. -/
inductive IgnoreSet.FileErrors (tree : Tree) (ignoreFile : Text) : List Text → Prop
  | unreadable {why : Failure} (hfile : ignoreFile ≠ [])
      (hread : tree.read ignoreFile = .error why) (hexists : why.has .notExist = false) :
      FileErrors tree ignoreFile
        [text "Failed to read ignore file " ++ ignoreFile ++ text ": " ++ why.message]
  | silent (h : ignoreFile ≠ [] → ∀ why, tree.read ignoreFile = .error why →
      why.has .notExist = true) : FileErrors tree ignoreFile []

open Log.Template in
/-- The message about an ignore file that cannot be read. -/
theorem IgnoreSet.unreadable_eq (ignoreFile : Text) (why : Failure) :
    Log.Entry.ofTemplate .error (text "Failed to read ignore file %s: %v")
      [.str ignoreFile, .str why.message] =
    ⟨.error, text "Failed to read ignore file " ++ ignoreFile ++ text ": " ++ why.message⟩ := by
  have hentry := ofTemplate_template .error (text "Failed to read ignore file ")
    [⟨0x73, .str ignoreFile, text ": "⟩, ⟨0x76, .str why.message, []⟩] (by decide)
    (by simp [Slot.Plain]; decide)
  exact hentry.trans (by simp [filled, shown_text])

theorem IgnoreSet.fileErrors_load (tree : Tree) (ignoreFile : Text) (extra : List Text) :
    FileErrors tree ignoreFile (Log.errors (load tree ignoreFile extra).2) := by
  rw [load]
  split_ifs with hfile
  · exact .silent fun hne => absurd (List.isEmpty_iff.1 hfile) hne
  · rw [List.isEmpty_iff] at hfile
    cases hread : tree.read ignoreFile with
    | ok content => exact .silent fun _ why hwhy => absurd (hread.symm.trans hwhy) (by simp)
    | error why =>
      dsimp only
      split_ifs with hexists
      · refine .silent fun _ other hother => ?_
        rwa [← Except.error.inj (hread.symm.trans hother)]
      · rw [unreadable_eq]
        exact .unreadable hfile hread (Bool.eq_false_iff.2 hexists)

namespace Search

/-- The skip of a directory that cannot be listed. -/
def directorySkip? (tree : Tree) (dir : Text) : Option Skip :=
  match tree.list dir with
  | .error why => some ⟨dir, why.message⟩
  | .ok _ => none

/-- The skip of a file that cannot be read. -/
def fileSkip? (tree : Tree) (path : Text) : Option Skip :=
  match tree.read path with
  | .error why => some ⟨path, text "failed to read file " ++ path ++ text ": " ++ why.message⟩
  | .ok _ => none

/-- The message about a directory that is skipped. -/
def directoryError (s : Skip) : Text :=
  text "Skipping directory " ++ s.path ++ text ": " ++ s.error

/-- The message about a file that is skipped. -/
def fileError (s : Skip) : Text := text "Skipping file: " ++ s.error

variable {tree : Tree} {id : Text} {r : Request} {ignore : IgnoreSet} {dir : Text}

/-! ### The log -/

/-- What an event adds to the errors of a log. -/
def eventErrors (tree : Tree) (r : Request) (e : Walk.Event) : List Text :=
  ([e].filterMap Walk.Event.skip?).map directoryError ++
    ((Walk.candidates r.extensions [e]).filterMap (skip? tree r)).map fileError

open Log.Template in
/-- The message about a file that cannot be read. -/
theorem skipping_eq (why : Text) :
    Log.Entry.ofTemplate .error (text "Skipping file: %v") [.str why] =
      ⟨.error, text "Skipping file: " ++ why⟩ := by
  have hentry := ofTemplate_template .error (text "Skipping file: ") [⟨0x76, .str why, []⟩]
    (by decide) (by simp [Slot.Plain]; decide)
  exact hentry.trans (by simp [filled, shown_text])

/-- Scanning a file adds an error if the file is skipped. -/
theorem errors_visit (s : Session) (log : List Log.Entry) (path : Text) :
    Log.errors (visit tree r (s, log) path).2 =
      Log.errors log ++ ([path].filterMap (skip? tree r)).map fileError := by
  rw [visit]
  cases hscan : scanFile tree r.mode r.target path with
  | error why => simp [Log.errors, skip?, hscan, fileError, skipping_eq]
  | ok record =>
    by_cases hhits : record.hits.isEmpty = true
    · simp [skip?, hscan, hhits]
    · simp [Log.errors, skip?, hscan, hhits, note, Log.Entry.ofTemplate]

/-- One event adds an error if its directory or its file is skipped. -/
theorem errors_handle (s : Session) (log : List Log.Entry) (e : Walk.Event) :
    Log.errors (handle tree r (s, log) e).2 = Log.errors log ++ eventErrors tree r e := by
  cases e with
  | file path name =>
    by_cases ha : Walk.accepts r.extensions name = true
    · simp [handle, ha, eventErrors, Walk.candidates, Walk.Event.file?, Walk.Event.skip?,
        errors_visit]
    · simp [handle, ha, eventErrors, Walk.candidates, Walk.Event.file?, Walk.Event.skip?]
  | unreadable dir why =>
    change Log.errors (log ++ (Walk.Event.unreadable dir why).log) = _
    rw [Log.errors_append, Walk.log_unreadable]
    rfl
  | _ => exact Log.errors_append log _

theorem errors_foldl (es : List Walk.Event) (s : Session) (log : List Log.Entry) :
    Log.errors (es.foldl (handle tree r) (s, log)).2 =
      Log.errors log ++ es.flatMap (eventErrors tree r) := by
  induction es generalizing s log with
  | nil => simp
  | cons e es ih =>
    rw [List.foldl_cons, ← Prod.eta (handle tree r (s, log) e), ih, errors_handle,
      List.flatMap_cons, List.append_assoc]

/-- The errors of a search: first those about its ignore file, then those of its
    walk as they come. -/
theorem errors_reportOf (es : List Walk.Event) : Log.errors (reportOf tree id r es).log =
    Log.errors (IgnoreSet.load tree r.ignoreFile r.ignore).2 ++
      es.flatMap (eventErrors tree r) := by
  -- The messages of the search itself are no errors.
  have hstart : Log.errors [startNote id r] = [] := rfl
  have hignore : Log.errors [ignoreNote id (ignoreSet tree r)] = [] := rfl
  have hend (found : Result) : Log.errors [endNote id found] = [] := rfl
  rw [reportOf]
  dsimp only
  rw [Log.errors_append, errors_foldl, hend, List.append_nil, ← List.singleton_append,
    Log.errors_append, Log.errors_append, hstart, hignore, List.nil_append, List.append_nil]

/-- Up to their order, the errors of a walk are those about its directories and
    those about its files. -/
theorem perm_eventErrors (es : List Walk.Event) : (es.flatMap (eventErrors tree r)).Perm
    ((es.filterMap Walk.Event.skip?).map directoryError ++
      ((Walk.candidates r.extensions es).filterMap (skip? tree r)).map fileError) := by
  induction es with
  | nil => exact .nil
  | cons e es ih =>
    rw [List.flatMap_cons, eventErrors, ← List.singleton_append (l := es), candidates_append,
      List.filterMap_append, List.filterMap_append, List.map_append, List.map_append,
      List.append_assoc, List.append_assoc]
    -- What the event adds about files moves behind the later directories.
    refine .append_left _ ((ih.append_left _).trans ?_)
    exact List.perm_append_comm_assoc _ _ _

/-! ### The result -/

theorem skip?_eq_fileSkip? (path : Text) : skip? tree r path = fileSkip? tree path := by
  rw [skip?, scanFile, fileSkip?]
  cases tree.read path with
  | error why => simp [Failure.within, Failure.message]
  | ok content => rfl

/-- The walk skips the directories to which it comes and that cannot be listed. -/
theorem skip?_eq_bind (hf : tree.Finite dir) {e : Walk.Event}
    (h : e ∈ Walk.descend tree ignore dir) :
    e.skip? = e.directory?.bind (directorySkip? tree) := by
  cases e with
  | listed sub =>
    obtain ⟨entries, hl⟩ := Walk.list_of_listed_mem hf h
    simp [Walk.Event.skip?, Walk.Event.directory?, directorySkip?, hl]
  | unreadable sub why =>
    have hl := Walk.list_of_unreadable_mem hf h
    simp [Walk.Event.skip?, Walk.Event.directory?, directorySkip?, hl]
  | _ => rfl

theorem filterMap_skip?_descend (hf : tree.Finite dir) :
    (Walk.descend tree ignore dir).filterMap Walk.Event.skip? =
      ((Walk.descend tree ignore dir).filterMap Walk.Event.directory?).filterMap
        (directorySkip? tree) := by
  rw [List.filterMap_filterMap]
  exact List.filterMap_congr fun e he => skip?_eq_bind hf he

/-- The directories and the files that are skipped on the walk from a directory,
    each in the order in which the recursive walk comes to them. -/
theorem skips_descend (extensions : List Text) (hf : tree.Finite dir) :
    (Walk.descend tree ignore dir).filterMap Walk.Event.skip? =
      (Walk.recursive tree ignore extensions dir hf).reached.filterMap (directorySkip? tree) ∧
    (Walk.candidates extensions (Walk.descend tree ignore dir)).filterMap (skip? tree r) =
      (Walk.recursive tree ignore extensions dir hf).visits.filterMap (fileSkip? tree) := by
  rw [← Walk.account_descend hf, filterMap_skip?_descend hf]
  exact ⟨rfl, List.filterMap_congr fun path _ => skip?_eq_fileSkip? path⟩

/-- A successful search lists the directories that it could not list and then the
    files that it could not read, both in the order in which the recursive walk
    comes to them. Up to their order, its error messages are one for each of these
    and, if there is an ignore file that exists but cannot be read, one for that. -/
theorem skips_logged_once (hf : tree.Finite r.root) {report : Report}
    (h : Answers tree id r (.ok report)) :
    let walk := Walk.recursive tree (ignoreSet tree r) r.extensions r.root hf
    let directories := walk.reached.filterMap (directorySkip? tree)
    let files := walk.visits.filterMap (fileSkip? tree)
    report.result.skipped = directories ++ files ∧
      ∃ own, IgnoreSet.FileErrors tree r.ignoreFile own ∧
        (Log.errors report.log).Perm
          (own ++ (directories.map directoryError ++ files.map fileError)) := by
  obtain ⟨hdirectories, hfiles⟩ := skips_descend (r := carriedOut r) r.extensions hf
  dsimp only
  rw [h.report_eq hf, result_reportOf, errors_reportOf, ← hdirectories, ← hfiles]
  exact ⟨rfl, _, IgnoreSet.fileErrors_load tree r.ignoreFile r.ignore,
    (perm_eventErrors _).append_left _⟩

/-- A search in the small tree, with an ignore file that cannot be read. -/
def unreadableRequest : Request := { sampleRequest with ignoreFile := text "ignored" }

theorem skips_logged_once_sample : ∃ report,
    Answers Tree.sample [] unreadableRequest (.ok report) ∧
      report.result.skipped.map (·.path) = [text "p/locked", text "p/a.js"] ∧
      Log.errors report.log = [text "Failed to read ignore file ignored: denied",
        text "Skipping file: failed to read file p/a.js: denied",
        text "Skipping directory p/locked: denied"] ∧
      ∃ own directories files, IgnoreSet.FileErrors Tree.sample (text "ignored") own ∧
        report.result.skipped = directories ++ files ∧
        (Log.errors report.log).Perm
          (own ++ (directories.map directoryError ++ files.map fileError)) := by
  have hfinite : Tree.sample.Finite unreadableRequest.root := Tree.finite_sample
  have h := answers_of_search (rfl : search Tree.sample [] 9 unreadableRequest = some _)
  obtain ⟨hskipped, own, hown, hperm⟩ := skips_logged_once hfinite h
  exact ⟨_, h, by decide +kernel, by decide +kernel, own, _, _, hown, hskipped, hperm⟩

end Search

end ImportFinder
