import ImportFinder.Builtin
import ImportFinder.Proofs.Plan.Build
import ImportFinder.Proofs.Progress
import ImportFinder.Proofs.Search.Answer
import ImportFinder.Tree.Disk
import Mathlib

/-!
# When a search is taken for misuse

Misuse of the command line is told from the words of a failure, and a failure
quotes what it is about: paths, file contents, arguments. A search whose arguments
were fine is nevertheless not confused with misuse, as long as its failures carry
a cause with an exit code of its own. They do while the plan is made
(`Plan.build_eq_error_iff`) and while the search runs (`isClassified_of_search`), but
for what is passed on as it came (`Foreign`): that there is no working directory, that
the terminal gave up, that the output refused the report. One of these failures is
about a file, and there the path in it was chosen by the user: a configuration file
that cannot be read.

* `isClassified_or_foreign`, `Foreign.exists_output`: a search fails for a known cause,
  or because the user quit, or with one of these failures, and every one of them is
  the failure of the search;
* `exitCode_runSearch_eq_usage_iff`: they are the only way to the exit code of misuse,
  and their words decide;
* `exitCode_unreadable_config`: a directory named like a message of the command
  line is such a configuration file.
-/

namespace ImportFinder

namespace Failure

variable {f : Failure} {all : List Failure}

/-- Joined failures carry a cause with an exit code if one of them does. -/
theorem isClassified_joined (hf : f ∈ all) (h : f.isClassified = true) :
    (joined all).isClassified = true := by
  simp only [isClassified, Bool.or_eq_true] at h ⊢
  rcases h with (h | h) | h
  · exact .inl (.inl (has_joined_iff.2 ⟨f, hf, h⟩))
  · exact .inl (.inr (has_joined_iff.2 ⟨f, hf, h⟩))
  · exact .inr (has_joined_iff.2 ⟨f, hf, h⟩)

end Failure

theorem isClassified_of_mem_problems {r : Request} {f : Failure} (h : f ∈ r.problems) :
    f.isClassified = true := by
  rw [Request.problems, List.mem_append] at h
  rcases h with h | h
  · split_ifs at h
    · rw [List.mem_singleton.1 h]
      rfl
    · exact absurd h List.not_mem_nil
  · split_ifs at h
    · rw [List.mem_singleton.1 h]
      rfl
    · exact absurd h List.not_mem_nil

theorem isClassified_of_check {r : Request} {f : Failure} (h : r.check = some f) :
    f.isClassified = true := by
  obtain ⟨hne, rfl⟩ := Failure.join?_eq_some_iff.1 h
  obtain ⟨g, hg⟩ := List.exists_mem_of_ne_nil _ hne
  exact Failure.isClassified_joined hg (isClassified_of_mem_problems hg)

theorem Search.isClassified_of_rootProblem {tree : Tree} {root : Text} {f : Failure}
    (h : rootProblem tree root = some f) : f.isClassified = true := by
  rw [rootProblem] at h
  split at h
  · rw [← Option.some.inj h]
    rfl
  · split_ifs at h
    rw [← Option.some.inj h]
    rfl

theorem Search.isClassified_of_search {tree : Tree} {id : Text} {steps : Nat} {r : Request}
    {f : Failure} (h : search tree id steps r = some (.error f)) : f.isClassified = true := by
  cases hp : problem tree r with
  | some g =>
    rw [search_of_problem hp] at h
    obtain rfl := Except.error.inj (Option.some.inj h)
    rw [problem, Option.or_eq_some_iff] at hp
    rcases hp with hcheck | ⟨-, hroot⟩
    · exact isClassified_of_check hcheck
    · exact isClassified_of_rootProblem hroot
  | none =>
    rw [search_of_no_problem hp, Option.map_eq_some_iff] at h
    obtain ⟨_, _, hok⟩ := h
    exact absurd hok (by simp)

namespace CommandLine

variable {h : Host} {steps : Nat} {g : Given} {target work : Text} {root : Option Text}
  {plan : Plan} {env : Environment} {found : Except Failure Search.Report} {f : Failure}
  {o : Output} {verbose : Bool} {interaction : Interaction}

/-! ### What a search passes on -/

/-- A search is planned and comes to an end. -/
structure Planned (h : Host) (steps : Nat) (g : Given) (target : Text) (root : Option Text)
    (work : Text) (plan : Plan) (env : Environment) (found : Except Failure Search.Report) :
    Prop where
  work_eq : h.work = .ok work
  build_eq : Plan.build h.readers h.tree work h.env g.flags target root = .ok (plan, env)
  search_eq : Search.search h.tree (sessionName h.random) steps plan.request = some found

/-- How the wait for a planned search fails, if it does. -/
def waitFailure (h : Host) (verbose : Bool) (work : Text) (plan : Plan)
    (interaction : Interaction) (found : Except Failure Search.Report) : Option Failure :=
  (await h.runner (searchMessage work plan.request) (searchLog verbose found)
    (planWork plan found) interaction).2

/-- Why the terminal gives up a planned search, if it does. -/
def terminalProblem (h : Host) (verbose : Bool) (work : Text) (plan : Plan)
    (found : Except Failure Search.Report) : Option Failure :=
  (h.runner.history (searchMessage work plan.request) (searchLog verbose found)
    (planWork plan found)).problem

/-- Why the report of a result is refused, if it is. -/
def reportFailure (h : Host) (plan : Plan) (interaction : Interaction) (r : Result) :
    Option Failure :=
  (Report.render h.encoder h.stdout (reportOptions h.palette plan interaction) r).failure

/-- The failures that a search passes on as they came. -/
inductive Foreign (h : Host) (steps : Nat) (g : Given) (target : Text) (root : Option Text) :
    Failure → Prop
  /-- There is no working directory. -/
  | work {why : Failure} (hwork : h.work = .error why) :
      Foreign h steps g target root (.within (text "failed to get working directory") why)
  /-- Something that cannot be read stands in the place of the configuration file. -/
  | config {work : Text} {env : Environment} {why : Failure} (hwork : h.work = .ok work)
      (hload : DotEnv.load h.readers.vars h.tree h.env work = .ok env)
      (hfile : Plan.Unreadable h.tree (Plan.configPath work g.flags.config) why) :
      Foreign h steps g target root (Plan.configRefusal g.flags.config why)
  /-- The terminal gives up. -/
  | terminal {work : Text} {plan : Plan} {env : Environment}
      {found : Except Failure Search.Report} {f : Failure}
      (hplanned : Planned h steps g target root work plan env found)
      (hinteractive : h.terminal.interaction env = .interactive)
      (hproblem : terminalProblem h g.verbose work plan found = some f) :
      Foreign h steps g target root f
  /-- The report is refused. -/
  | report {work : Text} {plan : Plan} {env : Environment} {s : Search.Report} {f : Failure}
      (hplanned : Planned h steps g target root work plan env (.ok s))
      (hwait : waitFailure h g.verbose work plan (h.terminal.interaction env) (.ok s) = none)
      (hreport : reportFailure h plan (h.terminal.interaction env) s.result = some f) :
      Foreign h steps g target root f

/-! ### A planned search -/

theorem Planned.runSearch_eq (hp : Planned h steps g target root work plan env found) :
    runSearch h steps g target root =
      some (runPlan h work g.verbose plan (h.terminal.interaction env) found) := by
  rw [runSearch, hp.work_eq]
  dsimp only
  rw [hp.build_eq]
  dsimp only
  rw [hp.search_eq]
  rfl

@[simp]
theorem failure_fail {stderr : Text} : (fail stderr f).failure = some f := rfl

theorem failure_reportFound {stderr : Text} {r : Result} :
    (reportFound h stderr plan interaction r).failure = reportFailure h plan interaction r := by
  rw [reportFound, reportFailure]
  dsimp only
  split <;> simp_all

/-- The work fails as the search does. -/
theorem eq_error_of_planWork (h : planWork plan found = .error f) : found = .error f := by
  cases found with
  | ok s => simp [planWork, Except.map] at h
  | error g => exact congrArg _ (Except.error.inj h)

theorem exists_eq_ok_of_planWork {summary : Text} (h : planWork plan found = .ok summary) :
    ∃ s, found = .ok s := by
  cases found with
  | ok s => exact ⟨s, rfl⟩
  | error f => simp [planWork, Except.map] at h

/-- A failure of the wait is that of the run. -/
theorem failure_runPlan_of_some
    (hwait : waitFailure h verbose work plan interaction found = some f) :
    (runPlan h work verbose plan interaction found).failure = some f := by
  rw [waitFailure] at hwait
  rw [runPlan]
  dsimp only
  rw [hwait]
  rfl

/-- When the wait has not failed, the search has not failed either, and its report may
    still be refused. -/
theorem failure_runPlan_of_none
    (hwait : waitFailure h verbose work plan interaction found = none) :
    ∃ s, found = .ok s ∧ (runPlan h work verbose plan interaction found).failure =
      reportFailure h plan interaction s.result := by
  have hwork : ∃ summary, planWork plan found = .ok summary := by
    cases interaction with
    | plain =>
      cases hwork : planWork plan found with
      | ok summary => exact ⟨summary, rfl⟩
      | error f => simp [waitFailure, await, hwork, Progress.failure?] at hwait
    | interactive => exact Progress.History.exists_eq_ok hwait
  obtain ⟨summary, hsummary⟩ := hwork
  obtain ⟨s, rfl⟩ := exists_eq_ok_of_planWork hsummary
  rw [waitFailure] at hwait
  refine ⟨s, rfl, ?_⟩
  rw [runPlan]
  dsimp only
  rw [hwait]
  exact failure_reportFound

/-- The wait fails with the search, or because the user quits, or with the terminal. -/
theorem waitFailure_eq_some
    (hwait : waitFailure h verbose work plan interaction found = some f) :
    found = .error f ∨ f = .cause .interrupted ∨
      interaction = .interactive ∧ terminalProblem h verbose work plan found = some f := by
  cases interaction with
  | plain =>
    cases hfound : planWork plan found with
    | ok summary => simp [waitFailure, await, hfound, Progress.failure?] at hwait
    | error g =>
      rw [waitFailure, await, hfound] at hwait
      exact .inl (Option.some.inj hwait ▸ eq_error_of_planWork hfound)
  | interactive =>
    rcases Progress.History.failure?_eq_some hwait with hproblem | herror | hquit
    · exact .inr (.inr ⟨rfl, hproblem⟩)
    · exact .inl (eq_error_of_planWork herror)
    · exact .inr (.inl hquit)

/-! ### How a search fails -/

/-- A search fails for a known cause, or because the user quit, or with what it passes
    on. -/
theorem isClassified_or_foreign (hrun : runSearch h steps g target root = some o)
    (hf : o.failure = some f) : f.isClassified = true ∨ f = .cause .interrupted ∨
      Foreign h steps g target root f := by
  cases hwork : h.work with
  | error why =>
    simp only [runSearch, hwork, Option.some.injEq] at hrun
    obtain rfl := hrun
    exact .inr (.inr (Option.some.inj hf ▸ .work hwork))
  | ok work =>
    cases hbuild : Plan.build h.readers h.tree work h.env g.flags target root with
    | error why =>
      simp only [runSearch, hwork, hbuild, Option.some.injEq] at hrun
      obtain rfl := hrun
      obtain rfl := Option.some.inj hf
      rcases Plan.build_eq_error_iff.1 hbuild with ⟨_, -, rfl⟩ | ⟨env, henv, hc | ⟨c, -, hc⟩⟩
      · exact .inl rfl
      · rcases Plan.loadConfig_eq_error hc with hclass | ⟨why, hwhy, rfl⟩
        · exact .inl hclass
        · exact .inr (.inr (.config hwork henv hwhy))
      · exact .inl (Plan.isClassified_of_ofConfig hc)
    | ok built =>
      obtain ⟨plan, env⟩ := built
      cases hsearch : Search.search h.tree (sessionName h.random) steps plan.request with
      | none => simp [runSearch, hwork, hbuild, hsearch] at hrun
      | some found =>
        have hplanned : Planned h steps g target root work plan env found :=
          ⟨hwork, hbuild, hsearch⟩
        obtain rfl := Option.some.inj (hplanned.runSearch_eq.symm.trans hrun)
        cases hwait : waitFailure h g.verbose work plan (h.terminal.interaction env) found with
        | some g =>
          obtain rfl := Option.some.inj ((failure_runPlan_of_some hwait).symm.trans hf)
          rcases waitFailure_eq_some hwait with rfl | hquit | ⟨hinteractive, hproblem⟩
          · exact .inl (Search.isClassified_of_search hsearch)
          · exact .inr (.inl hquit)
          · exact .inr (.inr (.terminal hplanned hinteractive hproblem))
        | none =>
          obtain ⟨s, rfl, hreport⟩ := failure_runPlan_of_none hwait
          exact .inr (.inr (.report hplanned hwait (hreport.symm.trans hf)))

/-- What is passed on is the failure of the search. -/
theorem Foreign.exists_output (hf : Foreign h steps g target root f) :
    ∃ o, runSearch h steps g target root = some o ∧ o.failure = some f := by
  cases hf with
  | work hwork => exact ⟨_, by rw [runSearch, hwork], rfl⟩
  | @config work _ why hwork hload hfile =>
    have hrefused : Plan.build h.readers h.tree work h.env g.flags target root =
        .error (Plan.configRefusal g.flags.config why) :=
      Plan.build_eq_error_iff.2 (.inr ⟨_, hload, .inl hfile.loadConfig⟩)
    refine ⟨fail [] (Plan.configRefusal g.flags.config why), ?_, failure_fail⟩
    rw [runSearch, hwork]
    dsimp only
    rw [hrefused]
  | terminal hplanned hinteractive hproblem =>
    refine ⟨_, hplanned.runSearch_eq, failure_runPlan_of_some ?_⟩
    rw [terminalProblem] at hproblem
    simp [waitFailure, await, hinteractive, Progress.History.failure?, hproblem]
  | report hplanned hwait hreport =>
    obtain ⟨s, hs, hfailure⟩ := failure_runPlan_of_none hwait
    obtain rfl := Except.ok.inj hs
    exact ⟨_, hplanned.runSearch_eq, hfailure.trans hreport⟩

/-- A search ends with the exit code of misuse if, and only if, it passes on a failure
    without a known cause that holds a phrase of misuse. -/
theorem exitCode_runSearch_eq_usage_iff :
    (runSearch h steps g target root).map Output.exitCode = some .usage ↔
      ∃ f, Foreign h steps g target root f ∧ f.isClassified = false ∧
        usagePhrases.any (Text.occursIn · f.message) = true := by
  rw [Option.map_eq_some_iff]
  constructor
  · rintro ⟨o, hrun, hcode⟩
    cases hf : o.failure with
    | none => simp [Output.exitCode, hf, exitCode] at hcode
    | some f =>
      rw [Output.exitCode, hf, exitCode_eq_usage_iff] at hcode
      rcases isClassified_or_foreign hrun hf with hclass | rfl | hforeign
      · simp [hclass] at hcode
      · -- Quitting is not told in the words of misuse.
        exact absurd hcode.2 (by decide)
      · exact ⟨f, hforeign, hcode⟩
  · rintro ⟨f, hforeign, hwords⟩
    obtain ⟨o, hrun, hf⟩ := hforeign.exists_output
    exact ⟨o, hrun, by rw [Output.exitCode, hf, exitCode_eq_usage_iff]; exact hwords⟩

/-- A disk with a directory that is named like a message of the command line. -/
def crowdedDisk : Disk where
  work := [text "w"]
  nodes := [([text "w"], .directory), ([text "w", text "unknown flag"], .directory)]

theorem exitCode_unreadable_config :
    (runSearch (.builtin crowdedDisk.tree (.ok (text "/w"))) 0
      { flags := { config := text "unknown flag" } } (text "utils") none).map Output.exitCode =
        some .usage := by
  cbv

end CommandLine

end ImportFinder
