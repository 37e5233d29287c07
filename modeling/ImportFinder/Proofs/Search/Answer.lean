import ImportFinder.Proofs.Walk.Descent
import ImportFinder.Search

/-!
# The answer of a search

A search is given a number of steps; its answer is what it gives whenever it may
take enough of them (`Search.Answers`). There is at most one, and there is one
if the root has a finite unfolding.

What keeps a search from starting is known before anything is listed
(`Search.problem`). Otherwise its session takes in one event of the walk after
the other. Each event adds to the lists and counts what it would add to an empty
session, so what a search finds is read off the events as a whole
(`Search.tally`):

* `foldl_handle`: what a session has taken in after some events;
* `exists_answers_ok`: a search that nothing keeps from starting succeeds;
* `Answers.result_eq`: the result of a successful search;
* `answers_alike`: two searches that the same keeps from starting.
-/

namespace ImportFinder.Search

variable {tree : Tree} {id : Text} {r : Request}

/-- The search comes to an answer: it gives it whenever it may take enough
    steps. -/
def Answers (tree : Tree) (id : Text) (r : Request) (answer : Except Failure Report) : Prop :=
  ∃ n, ∀ steps, n ≤ steps → search tree id steps r = some answer

theorem Answers.unique {a b : Except Failure Report} (ha : Answers tree id r a)
    (hb : Answers tree id r b) : a = b := by
  obtain ⟨n, hn⟩ := ha
  obtain ⟨m, hm⟩ := hb
  -- Both are given after the larger number of steps.
  have hboth := (hn (max n m) (Nat.le_max_left _ _)).symm.trans (hm _ (Nat.le_max_right _ _))
  exact Option.some.inj hboth

/-- What keeps a search from starting. -/
def problem (tree : Tree) (r : Request) : Option Failure :=
  r.check.or (rootProblem tree r.root)

theorem search_of_problem {f : Failure} (h : problem tree r = some f) (steps : Nat) :
    search tree id steps r = some (.error f) := by
  rw [search]
  cases hc : r.check with
  | some g => simpa [problem, hc] using h
  | none =>
    have hroot : rootProblem tree r.root = some f := by simpa [problem, hc] using h
    simp [hroot]

/-- The walk looks at the root as the search does. -/
theorem rootProblem_walk_eq_none {root : Text} (h : rootProblem tree root = none) :
    Walk.rootProblem tree root = none := by
  rw [rootProblem] at h
  rw [Walk.rootProblem]
  cases hstat : tree.stat root with
  | error f => simp [hstat] at h
  | ok entry =>
    rw [hstat] at h
    dsimp only at h ⊢
    split_ifs at h with hkind
    exact if_pos hkind

/-- Below a root that has been looked at, the walk starts. -/
theorem walk_eq {root : Text} (h : rootProblem tree root = none) (ignore : IgnoreSet)
    (steps : Nat) :
    Walk.walk tree ignore steps root = (Walk.events tree ignore steps root).map .ok := by
  rw [Walk.walk, rootProblem_walk_eq_none h]

/-! ### What a session takes in -/

/-- The record that a file adds, if it has a match. -/
def record? (tree : Tree) (r : Request) (path : Text) : Option FileRecord :=
  match scanFile tree r.mode r.target path with
  | .error _ => none
  | .ok record => if record.hits.isEmpty then none else some record

/-- The skip that a file adds, if it cannot be read. -/
def skip? (tree : Tree) (r : Request) (path : Text) : Option Skip :=
  match scanFile tree r.mode r.target path with
  | .error f => some ⟨path, f.message⟩
  | .ok _ => none

/-- A session that has taken in the files at some paths. -/
def gather (tree : Tree) (r : Request) (s : Session) (paths : List Text) : Session :=
  let found := paths.filterMap (record? tree r)
  { s with
    files := s.files ++ found
    fileSkips := s.fileSkips ++ paths.filterMap (skip? tree r)
    matchCount := s.matchCount + (found.map (·.hits.length)).sum
    unusedCount := s.unusedCount + (found.map (·.unusedCount)).sum }

theorem gather_nil (s : Session) : gather tree r s [] = s := by
  simp [gather]

theorem gather_append (s : Session) (ps qs : List Text) :
    gather tree r s (ps ++ qs) = gather tree r (gather tree r s ps) qs := by
  simp [gather, Nat.add_assoc]

/-- One file adds its record or its skip. -/
theorem visit_fst (s : Session) (log : List Log.Entry) (path : Text) :
    (visit tree r (s, log) path).1 = gather tree r s [path] := by
  rw [visit]
  cases hscan : scanFile tree r.mode r.target path with
  | error f => simp [gather, record?, skip?, hscan, Session.addSkip]
  | ok record =>
    by_cases hhits : record.hits.isEmpty = true
    · simp [gather, record?, skip?, hscan, hhits]
    · simp [gather, record?, skip?, hscan, hhits, Session.addRecord]

/-- One event adds what its file adds, if that passes the list of extensions. -/
theorem handle_fst (s : Session) (log : List Log.Entry) (e : Walk.Event) :
    (handle tree r (s, log) e).1 = gather tree r s (Walk.candidates r.extensions [e]) := by
  cases e with
  | file path name =>
    by_cases ha : Walk.accepts r.extensions name = true
    · simp [handle, ha, Walk.candidates, Walk.Event.file?, visit_fst]
    · simp [handle, ha, Walk.candidates, Walk.Event.file?, gather_nil]
  | _ => exact (gather_nil s).symm

theorem candidates_append (extensions : List Text) (es ds : List Walk.Event) :
    Walk.candidates extensions (es ++ ds) =
      Walk.candidates extensions es ++ Walk.candidates extensions ds := by
  simp [Walk.candidates]

/-- After some events, a session has taken in the files among them that pass the
    list of extensions. -/
theorem foldl_handle (es : List Walk.Event) (s : Session) (log : List Log.Entry) :
    (es.foldl (handle tree r) (s, log)).1 =
      gather tree r s (Walk.candidates r.extensions es) := by
  induction es generalizing s log with
  | nil => exact (gather_nil s).symm
  | cons e es ih =>
    rw [List.foldl_cons, ← Prod.eta (handle tree r (s, log) e), ih, handle_fst, ← gather_append,
      ← candidates_append, List.singleton_append]

/-! ### What a search finds -/

/-- The names that a request passes over. -/
def ignoreSet (tree : Tree) (r : Request) : IgnoreSet :=
  (IgnoreSet.load tree r.ignoreFile r.ignore).1

/-- What a search finds, read off the events of its walk. -/
def tally (tree : Tree) (id : Text) (r : Request) (es : List Walk.Event) : Result :=
  let paths := Walk.candidates r.extensions es
  let found := paths.filterMap (record? tree r)
  let stats := Walk.stats es
  { sessionId := id
    target := r.target
    root := r.root
    mode := r.mode
    files := found
    visited := stats.files
    skipped := stats.skipped ++ paths.filterMap (skip? tree r)
    filesVisited := stats.files.length
    dirsVisited := stats.dirs
    matchCount := ((found.map (·.hits.length)).sum : Nat)
    filesWithMatches := found.length
    unusedCount := ((found.map (·.unusedCount)).sum : Nat) }

/-- What a search reports after the events of its walk. -/
def reportOf (tree : Tree) (id : Text) (r : Request) (es : List Walk.Event) : Report :=
  let before := startNote id r :: (IgnoreSet.load tree r.ignoreFile r.ignore).2 ++
    [ignoreNote id (ignoreSet tree r)]
  let ended := es.foldl (handle tree r) (Session.start id r, before)
  let result := (ended.1.setStats (Walk.stats es)).result
  ⟨result, ended.2 ++ [endNote id result]⟩

/-- Below a root that has been looked at, a search reports on the events of its
    walk. -/
theorem explore_eq (h : rootProblem tree r.root = none) (steps : Nat) :
    (explore tree id steps r).map Course.answer =
      (Walk.events tree (ignoreSet tree r) steps r.root).map fun es =>
        .ok (reportOf tree id r es) := by
  rw [explore]
  dsimp only
  rw [walk_eq h]
  cases hes : Walk.events tree (IgnoreSet.load tree r.ignoreFile r.ignore).1 steps r.root with
  | none => rw [ignoreSet, hes]; rfl
  | some es => rw [ignoreSet, hes]; rfl

theorem result_reportOf (es : List Walk.Event) :
    (reportOf tree id r es).result = tally tree id r es := by
  simp [reportOf, foldl_handle, gather, tally, Session.start, Session.setStats, Session.result]

/-- The request that is carried out: without a mode, in the default one. -/
def carriedOut (r : Request) : Request := { r with mode := r.mode.orDefault }

/-- A search that nothing keeps from starting reports on the events of its walk. -/
theorem search_of_no_problem (h : problem tree r = none) (steps : Nat) :
    search tree id steps r = (Walk.events tree (ignoreSet tree r) steps r.root).map fun es =>
      .ok (reportOf tree id (carriedOut r) es) := by
  rw [problem, Option.or_eq_none_iff] at h
  rw [search, h.1, h.2]
  exact explore_eq (r := carriedOut r) h.2 steps

/-- A search that nothing keeps from starting reports on the events of the
    descent, if its root has a finite unfolding. -/
theorem answers_reportOf (hf : tree.Finite r.root) (h : problem tree r = none) (id : Text) :
    Answers tree id r (.ok (reportOf tree id (carriedOut r)
      (Walk.descend tree (ignoreSet tree r) r.root))) := by
  obtain ⟨n, hn⟩ := Walk.exists_events_eq (ignoreSet tree r) hf
  refine ⟨n, fun steps hle => ?_⟩
  rw [search_of_no_problem h, hn steps hle]
  rfl

/-- A search that nothing keeps from starting succeeds, if its root has a finite
    unfolding. -/
theorem exists_answers_ok (hf : tree.Finite r.root) (h : problem tree r = none) (id : Text) :
    ∃ report, Answers tree id r (.ok report) ∧ report.result =
      tally tree id (carriedOut r) (Walk.descend tree (ignoreSet tree r) r.root) :=
  ⟨_, answers_reportOf hf h id, result_reportOf _⟩

theorem answers_error {f : Failure} (h : problem tree r = some f) (id : Text) :
    Answers tree id r (.error f) :=
  ⟨0, fun steps _ => search_of_problem h steps⟩

/-- An answer that is given at all is the answer: more steps do not change it. -/
theorem answers_of_search {steps : Nat} {a : Except Failure Report}
    (h : search tree id steps r = some a) : Answers tree id r a := by
  refine ⟨steps, fun more hle => ?_⟩
  cases hp : problem tree r with
  | some f =>
    rw [search_of_problem hp] at h ⊢
    exact h
  | none =>
    -- Only the walk depends on the number of steps.
    rw [search_of_no_problem hp, Option.map_eq_some_iff] at h ⊢
    obtain ⟨es, hes, ha⟩ := h
    exact ⟨es, Walk.run_mono hle hes, ha⟩

/-- What a successful search finds is read off the events of its walk. -/
theorem exists_tally_of_search {steps : Nat} {report : Report}
    (h : search tree id steps r = some (.ok report)) :
    ∃ es, report.result = tally tree id (carriedOut r) es := by
  cases hp : problem tree r with
  | some f =>
    rw [search_of_problem hp] at h
    exact absurd h (by simp)
  | none =>
    rw [search_of_no_problem hp, Option.map_eq_some_iff] at h
    obtain ⟨es, _, hok⟩ := h
    obtain rfl := Except.ok.inj hok
    exact ⟨es, result_reportOf es⟩

theorem Answers.problem_eq {report : Report} (h : Answers tree id r (.ok report)) :
    problem tree r = none := by
  cases hp : problem tree r with
  | some f => exact absurd (h.unique (answers_error hp id)) (by simp)
  | none => rfl

/-- A successful search reports on the events of the descent. -/
theorem Answers.report_eq (hf : tree.Finite r.root) {report : Report}
    (h : Answers tree id r (.ok report)) : report =
      reportOf tree id (carriedOut r) (Walk.descend tree (ignoreSet tree r) r.root) :=
  Except.ok.inj (h.unique (answers_reportOf hf h.problem_eq id))

/-- What a successful search finds is read off the descent. -/
theorem Answers.result_eq (hf : tree.Finite r.root) {report : Report}
    (h : Answers tree id r (.ok report)) : report.result =
      tally tree id (carriedOut r) (Walk.descend tree (ignoreSet tree r) r.root) := by
  rw [h.report_eq hf, result_reportOf]

/-! ### Two searches -/

section

variable {first second : Tree}

/-- Whether a search starts depends on the tree only through what stands at the
    root. -/
theorem problem_congr (h : second.stat r.root = first.stat r.root) :
    problem second r = problem first r := by
  rw [problem, problem, rootProblem, rootProblem, h]

theorem ignoreSet_congr (h : second.read r.ignoreFile = first.read r.ignoreFile) :
    ignoreSet second r = ignoreSet first r := by
  rw [ignoreSet, ignoreSet, IgnoreSet.load, IgnoreSet.load, h]

theorem record?_congr {path : Text} (h : second.read path = first.read path) :
    record? second r path = record? first r path := by
  rw [record?, record?, scanFile, scanFile, h]

theorem skip?_congr {path : Text} (h : second.read path = first.read path) :
    skip? second r path = skip? first r path := by
  rw [skip?, skip?, scanFile, scanFile, h]

/-- What is read off the events of a walk depends on the tree only through what
    its files hold. -/
theorem tally_congr (h : ∀ path, second.read path = first.read path) (es : List Walk.Event) :
    tally second id r es = tally first id r es := by
  have hrecord : record? second r = record? first r := funext fun path => record?_congr (h path)
  have hskip : skip? second r = skip? first r := funext fun path => skip?_congr (h path)
  rw [tally, tally, hrecord, hskip]

/-- Two searches that the same keeps from starting fail alike, or both succeed
    with what is read off their descents. -/
theorem answers_alike (r₁ r₂ : Request) (hf₁ : first.Finite r₁.root) (hf₂ : second.Finite r₂.root)
    (h : problem first r₁ = problem second r₂) (id₁ id₂ : Text) :
    (∃ f, Answers first id₁ r₁ (.error f) ∧ Answers second id₂ r₂ (.error f)) ∨
    ∃ a b, Answers first id₁ r₁ (.ok a) ∧ Answers second id₂ r₂ (.ok b) ∧
      a.result =
        tally first id₁ (carriedOut r₁) (Walk.descend first (ignoreSet first r₁) r₁.root) ∧
      b.result =
        tally second id₂ (carriedOut r₂) (Walk.descend second (ignoreSet second r₂) r₂.root) := by
  cases hp : problem first r₁ with
  | some f => exact .inl ⟨f, answers_error hp id₁, answers_error (h.symm.trans hp) id₂⟩
  | none =>
    obtain ⟨a, ha, ha'⟩ := exists_answers_ok hf₁ hp id₁
    obtain ⟨b, hb, hb'⟩ := exists_answers_ok hf₂ (h.symm.trans hp) id₂
    exact .inr ⟨a, b, ha, hb, ha', hb'⟩

end

/-- A search for `u` in the small tree. -/
def sampleRequest : Request := { target := { name := text "u" }, root := text "p" }

/-- Of two files only one can be read, and of two directories only one can be
    listed. -/
theorem exists_answers_sample : ∃ report, Answers Tree.sample [] sampleRequest (.ok report) ∧
    report.result.visited = [text "p/a.js", text "p/lib/b.js"] ∧
    report.result.skipped.map (·.path) = [text "p/locked", text "p/a.js"] :=
  ⟨_, answers_of_search (rfl : search _ _ 9 _ = some _), by decide +kernel, by decide +kernel⟩

end ImportFinder.Search
