import ImportFinder.Proofs.Log.Template
import ImportFinder.Proofs.Walk.Descent

/-!
# The walk without a stack

The walk keeps a stack of directories so that deep trees cannot exhaust anything
else. What it amounts to is what the plain recursion amounts to
(`Walk.recursive`): list the directory or note that it cannot be listed; then,
for each entry in the order of the listing, leave it out if it is ignored,
recurse if it is a directory, visit it if it is a file, and do nothing if it is
a link.

The recursion is written with accounts of its own (`Walk.Account`) and not with
the events of the stack: the visits, the statistics, the log, and the directories
for which it was called.

* `account_descend`: the events of the descent amount to the recursion;
* `stack_refines_recursive`: the walk ends, and amounts to the recursion.
-/

namespace ImportFinder.Walk

/-- What a walk amounts to. -/
@[ext]
structure Account where
  /-- The files that are handed on to be scanned. -/
  visits : List Text := []
  stats : Stats := {}
  log : List Log.Entry := []
  /-- The directories that were reached and not ignored, whether or not they
      could be listed. -/
  reached : List Text := []

namespace Account

/-- One account behind another. -/
def append (a b : Account) : Account where
  visits := a.visits ++ b.visits
  stats := {
    files := a.stats.files ++ b.stats.files
    dirs := a.stats.dirs + b.stats.dirs
    skipped := a.stats.skipped ++ b.stats.skipped }
  log := a.log ++ b.log
  reached := a.reached ++ b.reached

instance : Append Account := ⟨append⟩

@[simp]
theorem append_visits (a b : Account) : (a ++ b).visits = a.visits ++ b.visits := rfl

@[simp]
theorem append_stats (a b : Account) : (a ++ b).stats = {
    files := a.stats.files ++ b.stats.files
    dirs := a.stats.dirs + b.stats.dirs
    skipped := a.stats.skipped ++ b.stats.skipped } := rfl

@[simp]
theorem append_log (a b : Account) : (a ++ b).log = a.log ++ b.log := rfl

@[simp]
theorem append_reached (a b : Account) : (a ++ b).reached = a.reached ++ b.reached := rfl

/-- Accounts one behind another. -/
def concat (accounts : List Account) : Account := accounts.foldr (· ++ ·) {}

end Account

/-- The plain recursive walk from a directory with a finite unfolding. -/
def recursive (tree : Tree) (ignore : IgnoreSet) (extensions : List Text) (dir : Text)
    (hf : tree.Finite dir) : Account :=
  match hl : tree.list dir with
  | .error why => {
      stats := { skipped := [⟨dir, why.message⟩] }
      log := [⟨.error, text "Skipping directory " ++ dir ++ text ": " ++ why.message⟩]
      reached := [dir] }
  | .ok entries =>
    { stats := { dirs := 1 }, reached := [dir] } ++ .concat (entries.attach.map fun ⟨e, he⟩ =>
      let path := Path.join dir e.name
      if ignore.ignores e.name then { log := [⟨.verbose, text "Ignoring " ++ path⟩] }
      else match hk : e.kind with
        | .directory => recursive tree ignore extensions path (hf.down hl he hk)
        | .file => {
            visits := if accepts extensions e.name then [path] else []
            stats := { files := [path] } }
        | .link => {})
termination_by (⟨dir, hf⟩ : { dir : Text // tree.Finite dir })
decreasing_by exact ⟨entries, hl, e, he, hk, rfl⟩

/-! ### What events amount to -/

open Log.Template in
theorem log_unreadable (dir : Text) (why : Failure) : (Event.unreadable dir why).log =
    [⟨.error, text "Skipping directory " ++ dir ++ text ": " ++ why.message⟩] := by
  have hentry := ofTemplate_template .error (text "Skipping directory ")
    [⟨0x73, .str dir, text ": "⟩, ⟨0x76, .str why.message, []⟩] (by decide)
    (by simp [Slot.Plain]; decide)
  refine congrArg List.singleton (hentry.trans ?_)
  simp [filled, shown_text]

open Log.Template in
theorem log_ignored (path : Text) :
    (Event.ignored path).log = [⟨.verbose, text "Ignoring " ++ path⟩] := by
  have hentry := ofTemplate_template .verbose (text "Ignoring ") [⟨0x73, .str path, []⟩]
    (by decide) (by simp [Slot.Plain]; decide)
  refine congrArg List.singleton (hentry.trans ?_)
  simp [filled, shown_text]

/-- The directory that an event reaches. -/
def Event.directory? : Event → Option Text
  | .listed dir => some dir
  | .unreadable dir _ => some dir
  | _ => none

/-- What events amount to. -/
def account (extensions : List Text) (es : List Event) : Account where
  visits := candidates extensions es
  stats := stats es
  log := es.flatMap Event.log
  reached := es.filterMap Event.directory?

variable {tree : Tree} {ignore : IgnoreSet} {extensions : List Text} {dir : Text}

theorem account_append (es ds : List Event) :
    account extensions (es ++ ds) = account extensions es ++ account extensions ds := by
  ext1 <;> simp [account, candidates, stats]

theorem account_flatMap {α : Type} (f : α → List Event) (l : List α) :
    account extensions (l.flatMap f) = .concat (l.map fun a => account extensions (f a)) := by
  induction l with
  | nil => rfl
  | cons a l ih => rw [List.flatMap_cons, account_append, ih]; rfl

theorem account_file (path name : Text) : account extensions [.file path name] =
    { visits := if accepts extensions name then [path] else [], stats := { files := [path] } } := by
  cases ha : accepts extensions name <;>
    simp [account, candidates, stats, Event.file?, Event.skip?, Event.isListed, Event.log,
      Event.directory?, ha]

/-- Every directory that is reached is listed or skipped. -/
theorem length_reached (es : List Event) :
    ((account extensions es).reached.length : Int) =
      (stats es).dirs + (stats es).skipped.length := by
  change _ = (account extensions es).stats.dirs + (account extensions es).stats.skipped.length
  induction es with
  | nil => rfl
  | cons e es ih =>
    -- A directory that is reached has one event, which lists or skips it.
    have hone : ((account extensions [e]).reached.length : Int) =
        (account extensions [e]).stats.dirs + (account extensions [e]).stats.skipped.length := by
      cases e <;> rfl
    rw [← List.singleton_append, account_append]
    simp only [Account.append_reached, Account.append_stats, List.length_append, Int.natCast_add]
    omega

/-- The events of the descent amount to the recursion. -/
theorem account_descend (hf : tree.Finite dir) :
    account extensions (descend tree ignore dir) = recursive tree ignore extensions dir hf := by
  induction hf with
  | intro dir hsub ih =>
    have hf : tree.Finite dir := ⟨dir, hsub⟩
    rw [recursive]
    split
    · rename_i why hl
      rw [descend_of_error hl, account, List.flatMap_singleton, log_unreadable]
      rfl
    · -- Each entry is accounted for by itself.
      rename_i entries hl
      rw [descend_of_ok hf hl, ← List.singleton_append, account_append, account_flatMap,
        ← List.attach_map_val (f := fun e => account extensions (pass tree ignore dir e))]
      refine congrArg _ (congrArg _ (List.map_congr_left fun ⟨e, he⟩ _ => ?_))
      dsimp only
      by_cases hi : ignore.ignores e.name = true
      · rw [if_pos hi, pass_ignored hi, account, List.flatMap_singleton, log_ignored]
        rfl
      · rw [if_neg hi]
        rw [Bool.not_eq_true] at hi
        split
        · rename_i hk
          rw [pass_directory hi hk]
          exact ih _ ⟨entries, hl, e, he, hk, rfl⟩
        · rename_i hk
          rw [pass_file hi hk, account_file]
        · rename_i hk
          rw [pass_link hi hk]
          rfl

/-- From a root that is a directory with a finite unfolding, the walk ends. Its
    visits, its statistics and its log are those of the plain recursion, and the
    directories that it lists or skips are, in number, those that it reaches. -/
theorem stack_refines_recursive {root : Text} {entry : Entry} (hstat : tree.stat root = .ok entry)
    (hdir : entry.kind = .directory) (hf : tree.Finite root) (ignore : IgnoreSet)
    (extensions : List Text) :
    rootProblem tree root = none ∧ ∃ n, ∀ steps, n ≤ steps → ∃ es,
      walk tree ignore steps root = some (.ok es) ∧
      candidates extensions es = (recursive tree ignore extensions root hf).visits ∧
      stats es = (recursive tree ignore extensions root hf).stats ∧
      es.flatMap Event.log = (recursive tree ignore extensions root hf).log ∧
      (stats es).dirs + (stats es).skipped.length =
        (recursive tree ignore extensions root hf).reached.length := by
  have hroot : rootProblem tree root = none := by
    rw [rootProblem, hstat]
    exact if_pos hdir
  obtain ⟨n, hn⟩ := exists_events_eq ignore hf
  refine ⟨hroot, n, fun steps hle => ⟨descend tree ignore root, ?_, ?_⟩⟩
  · rw [walk, hroot, hn steps hle]
    rfl
  · rw [← account_descend hf]
    exact ⟨rfl, rfl, rfl, (length_reached _).symm⟩

/-- The walk through a tree with a directory that cannot be listed and a link. -/
theorem stack_refines_recursive_sample :
    Tree.sample.Finite (text "p") ∧ ∃ n, ∀ steps, n ≤ steps → ∃ es,
      walk Tree.sample (.ofList [text "a.js"]) steps (text "p") = some (.ok es) ∧
      candidates [text "js"] es =
        (recursive Tree.sample (.ofList [text "a.js"]) [text "js"] _ Tree.finite_sample).visits ∧
      (stats es).dirs + (stats es).skipped.length =
        (recursive Tree.sample (.ofList [text "a.js"]) [text "js"] _
          Tree.finite_sample).reached.length := by
  obtain ⟨_, n, hn⟩ := stack_refines_recursive rfl rfl Tree.finite_sample (.ofList [text "a.js"])
    [text "js"]
  refine ⟨Tree.finite_sample, n, fun steps hle => ?_⟩
  obtain ⟨es, hes, hvisits, _, _, hreached⟩ := hn steps hle
  exact ⟨es, hes, hvisits, hreached⟩

end ImportFinder.Walk
