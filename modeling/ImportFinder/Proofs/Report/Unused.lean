import ImportFinder.CommandLine
import ImportFinder.Proofs.Progress
import ImportFinder.Proofs.Search.Answer
import ImportFinder.Proofs.Tree.Linked

/-!
# The unused imports of a result

On demand a report shows nothing but the unused imports. `Result.unusedOnly` takes
them from the result and counts them again, whereas a session counts them as it
takes in one file after the other. Both come to the same number
(`unusedOnly_matchCount`).

What is shown of a result is a projection of it (`Result.UnusedPart`): files and
matches stay in order, and everything that is not about matches stays as it is.
Taken twice, it changes nothing more.

A user sees the numbers in two places, in the line that a spinner leaves behind and
in the report itself. They are told by different parts of the program, each of
which takes the unused imports from the result for itself
(`unusedOnly_faithful`).
-/

namespace ImportFinder

/-! ### The projection -/

/-- A record with nothing but the matches whose identifier is unused. -/
def FileRecord.unusedPart (f : FileRecord) : FileRecord :=
  { f with listed := some (f.hits.filter (·.unused)) }

namespace Result

/-- The number of matches in some files. -/
def hitCount (files : List FileRecord) : Nat := (files.map (·.hits.length)).sum

/-- What is shown of a result when only unused imports are asked for. -/
structure UnusedPart (r part : Result) : Prop where
  sessionId_eq : part.sessionId = r.sessionId
  target_eq : part.target = r.target
  root_eq : part.root = r.root
  mode_eq : part.mode = r.mode
  visited_eq : part.visited = r.visited
  skipped_eq : part.skipped = r.skipped
  filesVisited_eq : part.filesVisited = r.filesVisited
  dirsVisited_eq : part.dirsVisited = r.dirsVisited
  /-- The files keep their unused matches; those without any are left out. -/
  files_eq : part.files = (r.files.map (·.unusedPart)).filter (!·.hits.isEmpty)
  matchCount_eq : part.matchCount = hitCount part.files
  unusedCount_eq : part.unusedCount = hitCount part.files
  filesWithMatches_eq : part.filesWithMatches = part.files.length

variable {r : Result}

theorem unusedRecord?_eq (f : FileRecord) :
    unusedRecord? f = if f.unusedPart.hits.isEmpty then none else some f.unusedPart := by
  have hhits : f.unusedPart.hits = f.hits.filter (·.unused) := rfl
  rw [unusedRecord?, hhits]
  cases hkept : f.hits.filter (·.unused) with
  | nil => rfl
  | cons m more =>
    rw [FileRecord.unusedPart, hkept]
    rfl

theorem filterMap_unusedRecord? (files : List FileRecord) :
    files.filterMap unusedRecord? = (files.map (·.unusedPart)).filter (!·.hits.isEmpty) := by
  induction files with
  | nil => rfl
  | cons f files ih =>
    rw [List.filterMap_cons, unusedRecord?_eq, List.map_cons, List.filter_cons, ih]
    cases f.unusedPart.hits.isEmpty <;> rfl

theorem unusedPart_unusedOnly (r : Result) : r.UnusedPart r.unusedOnly where
  sessionId_eq := rfl
  target_eq := rfl
  root_eq := rfl
  mode_eq := rfl
  visited_eq := rfl
  skipped_eq := rfl
  filesVisited_eq := rfl
  dirsVisited_eq := rfl
  files_eq := filterMap_unusedRecord? r.files
  matchCount_eq := congrArg Nat.cast List.length_flatMap
  unusedCount_eq := congrArg Nat.cast List.length_flatMap
  filesWithMatches_eq := rfl

theorem hits_unusedPart (f : FileRecord) : f.unusedPart.hits = f.hits.filter (·.unused) := rfl

theorem unusedPart_unusedPart (f : FileRecord) : f.unusedPart.unusedPart = f.unusedPart := by
  rw [FileRecord.unusedPart, hits_unusedPart, List.filter_filter]
  simp [FileRecord.unusedPart]

/-- Taken once more, nothing is left out. -/
theorem filterMap_unusedRecord?_twice (files : List FileRecord) :
    (files.filterMap unusedRecord?).filterMap unusedRecord? = files.filterMap unusedRecord? := by
  have hsame : ∀ f ∈ files.filterMap unusedRecord?, f.unusedPart = f := by
    intro f hf
    rw [filterMap_unusedRecord?] at hf
    obtain ⟨g, _, rfl⟩ := List.mem_map.1 (List.mem_filter.1 hf).1
    exact unusedPart_unusedPart g
  rw [filterMap_unusedRecord? (files.filterMap unusedRecord?), List.map_congr_left hsame,
    List.map_id', filterMap_unusedRecord?, List.filter_filter]
  simp

theorem unusedOnly_unusedOnly (r : Result) : r.unusedOnly.unusedOnly = r.unusedOnly := by
  simp only [unusedOnly, filterMap_unusedRecord?_twice]

/-- The matches that are kept are as many as the unused ones. -/
theorem hitCount_filterMap_unusedRecord? (files : List FileRecord) :
    hitCount (files.filterMap unusedRecord?) = (files.map (·.unusedCount)).sum := by
  induction files with
  | nil => rfl
  | cons f files ih =>
    have hcount : f.unusedCount = f.unusedPart.hits.length := List.countP_eq_length_filter
    rw [List.filterMap_cons, unusedRecord?_eq, List.map_cons, List.sum_cons, ← ih, hcount]
    cases hhits : f.unusedPart.hits with
    | nil => simp
    | cons m more => simp [hitCount, hhits]

/-! ### What a search counts -/

/-- A session counts the unused matches as it takes in the files; the number is
    that of the matches that are kept. -/
theorem unusedOnly_matchCount {tree : Tree} {id : Text} {steps : Nat} {request : Request}
    {report : Search.Report} (h : Search.search tree id steps request = some (.ok report)) :
    report.result.unusedOnly.matchCount = report.result.unusedCount := by
  obtain ⟨es, hresult⟩ := Search.exists_tally_of_search h
  rw [hresult, (unusedPart_unusedOnly _).matchCount_eq]
  exact congrArg Nat.cast (hitCount_filterMap_unusedRecord? _)

/-! ### What is shown -/

/-- The part of a result that is shown. -/
def shown (unused : Bool) (r : Result) : Result := if unused then r.unusedOnly else r

/-- The totals of a result are those of its files. -/
structure Counted (r : Result) : Prop where
  matchCount_eq : r.matchCount = hitCount r.files
  filesWithMatches_eq : r.filesWithMatches = r.files.length

theorem counted_unusedOnly (r : Result) : r.unusedOnly.Counted :=
  ⟨(unusedPart_unusedOnly r).matchCount_eq, (unusedPart_unusedOnly r).filesWithMatches_eq⟩

theorem counted_of_search {tree : Tree} {id : Text} {steps : Nat} {request : Request}
    {report : Search.Report} (h : Search.search tree id steps request = some (.ok report)) :
    report.result.Counted := by
  obtain ⟨es, hresult⟩ := Search.exists_tally_of_search h
  rw [hresult]
  exact ⟨rfl, rfl⟩

theorem Counted.shown (h : r.Counted) (unused : Bool) : (r.shown unused).Counted := by
  cases unused with
  | true => exact counted_unusedOnly r
  | false => exact h

/-- The numbers of some files and of their matches in one line. -/
def countLine (files : List FileRecord) : Text :=
  Text.ofInt files.length ++ text " files - " ++ Text.ofInt (hitCount files) ++ text " results"

theorem Counted.summary_eq (h : r.Counted) : r.summary = countLine r.files := by
  rw [summary, h.matchCount_eq, h.filesWithMatches_eq]
  rfl

/-- The spinner and the report of a plan tell of the same files: those that the
    report shows, with as many matches as it shows. -/
structure Agree (plan : Plan) (r : Result) : Prop where
  /-- What the spinner shows when it was told that the search has ended, whatever else
      happens. -/
  spinner_eq : ∀ (wheel : Wheel) (look : Spinner.Look) (message : Text)
      (events : List (Progress.Event wheel)),
    Progress.Told (.ok (CommandLine.planSummary plan r)) events →
    Progress.ended (.ok (CommandLine.planSummary plan r)) ∈ events →
    Progress.view look (Progress.run (Progress.start message).1 events) =
      some (look.success (text "✓ " ++ countLine (r.shown plan.unusedOnly).files) ++
        [Text.newline])
  /-- The report, in every format and on every output, is that of what is shown. -/
  report_eq : ∀ encoder output palette i,
    Report.render encoder output (CommandLine.reportOptions palette plan i) r =
      Report.render encoder output
        { CommandLine.reportOptions palette plan i with unusedOnly := false }
        (r.shown plan.unusedOnly)
  counted : (r.shown plan.unusedOnly).Counted
  /-- The report to be read has a block for each file, and ends with the same
      line if there is no spinner. -/
  text_eq : plan.format = .text → ∀ encoder output palette,
    Report.render encoder output (CommandLine.reportOptions palette plan .plain) r =
      output.write
        ((r.shown plan.unusedOnly).files.flatMap (Report.fileBlock .plain r.mode r.target.name) ++
          text "\n" ++ countLine (r.shown plan.unusedOnly).files ++ text "\n")

theorem Counted.planSummary_eq (h : r.Counted) (plan : Plan) :
    CommandLine.planSummary plan r = countLine (r.shown plan.unusedOnly).files := by
  rw [← (h.shown plan.unusedOnly).summary_eq, CommandLine.planSummary, Result.shown]
  split_ifs <;> rfl

theorem Counted.agree (h : r.Counted) (plan : Plan) : Agree plan r := by
  have hreport : ∀ encoder output palette i,
      Report.render encoder output (CommandLine.reportOptions palette plan i) r =
        Report.render encoder output
          { CommandLine.reportOptions palette plan i with unusedOnly := false }
          (r.shown plan.unusedOnly) := by
    intro encoder output palette i
    cases i <;> rfl
  -- Neither the mode nor the target is changed by what is left out.
  have hsame : (r.shown plan.unusedOnly).mode = r.mode ∧
      (r.shown plan.unusedOnly).target = r.target := by
    unfold Result.shown
    split_ifs <;> exact ⟨rfl, rfl⟩
  refine ⟨fun wheel look message events htold hended => ?_, hreport, h.shown _,
    fun hformat encoder output palette => ?_⟩
  · rw [Progress.view, Spinner.view, Progress.status_run_of_mem htold hended,
      h.planSummary_eq plan]
    rfl
  · rw [hreport, ← hsame.1, ← hsame.2, ← (h.shown plan.unusedOnly).summary_eq]
    simp [Report.render, CommandLine.reportOptions, hformat, Report.plain, Report.Palette.plain]

/-- The unused imports that are shown of a result are a projection of it: what is
    not about matches stays as it is, files and matches stay in order, the totals
    are those of what is left, and taken twice it is the same. Of the result of a
    search there are as many as the search has counted, so that the spinner and
    the report agree. -/
theorem unusedOnly_faithful (r : Result) :
    r.UnusedPart r.unusedOnly ∧ r.unusedOnly.unusedOnly = r.unusedOnly ∧
    ∀ tree id steps request log,
      Search.search tree id steps request = some (.ok ⟨r, log⟩) →
        r.unusedOnly.matchCount = r.unusedCount ∧ ∀ plan, Agree plan r :=
  ⟨unusedPart_unusedOnly r, unusedOnly_unusedOnly r, fun _ _ _ _ _ h =>
    ⟨unusedOnly_matchCount h, (counted_of_search h).agree⟩⟩

/-- A file with a used and an unused import, and one with a used import. -/
def partlyUsed : Memory :=
  Memory.build (text "/p")
    [.file (text "a.js") (text "import v from './u'\nv()\nimport w from './u'\n"),
     .file (text "b.js") (text "import w from './u'\nw()\n")]

def partlyUsedRequest : Request := { target := { name := text "u" }, root := text "/p" }

theorem unusedOnly_faithful_sample : ∃ r log,
    Search.search partlyUsed.tree [] 4 partlyUsedRequest = some (.ok ⟨r, log⟩) ∧
    r.matchCount = 3 ∧ r.unusedOnly.matchCount = r.unusedCount ∧
    r.unusedOnly.files.map (·.path) = [text "/p/a.js"] := by
  have hsearch : ∃ r log,
      Search.search partlyUsed.tree [] 4 partlyUsedRequest = some (.ok ⟨r, log⟩) ∧
      r.matchCount = 3 ∧ r.unusedOnly.files.map (·.path) = [text "/p/a.js"] :=
    ⟨_, _, rfl, by decide +kernel, by decide +kernel⟩
  obtain ⟨r, log, h, hcount, hfiles⟩ := hsearch
  exact ⟨r, log, h, hcount, ((unusedOnly_faithful r).2.2 _ _ _ _ _ h).1, hfiles⟩

end Result

end ImportFinder
