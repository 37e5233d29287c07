import ImportFinder.Plan
import ImportFinder.Proofs.Failure
import Mathlib.Tactic.SplitIfs

/-!
# How a plan comes about

A plan is built in steps, each of which may fail: the working directory's file of
variables is loaded, then the configuration, and then everything is put together.
`build_eq_ok_iff` and `build_eq_error_iff` say what each outcome takes, whatever the
readers of the two files are.

What fails has a known cause (`Failure.isClassified`), whatever the file of
variables, the configuration or the user wrote, with one exception
(`loadConfig_eq_error`): a configuration file that stands at its place but cannot
be read passes the failure of the file system on.
-/

namespace ImportFinder

namespace Plan

variable {readers : Readers} {read : Text → Except Text Config} {tree : Tree}
  {work target named : Text} {env after : Environment} {flags : Flags} {root : Option Text}
  {plan : Plan} {f : Failure} {c : Config}

/-! ### The steps -/

/-- A plan is built if the file of variables and the configuration can be loaded
    and put together. -/
theorem build_eq_ok_iff : build readers tree work env flags target root = .ok (plan, after) ↔
    DotEnv.load readers.vars tree env work = .ok after ∧
      ∃ c, loadConfig readers.config tree work flags.config = .ok c ∧
      ofConfig work (c.applyEnvironment after) flags target root = .ok plan := by
  rw [build]
  cases DotEnv.load readers.vars tree env work with
  | error why => simp [bind_eq_ok_iff]
  | ok env =>
    simp only [bind_eq_ok_iff, pure_eq_ok_iff, Prod.mk.injEq, Except.ok.injEq]
    constructor
    · rintro ⟨_, rfl, c, hc, _, hplan, rfl, rfl⟩
      exact ⟨rfl, c, hc, hplan⟩
    · rintro ⟨rfl, c, hc, hplan⟩
      exact ⟨_, rfl, c, hc, plan, hplan, rfl, rfl⟩

/-- A plan fails with the first of its steps that fails. -/
theorem build_eq_error_iff : build readers tree work env flags target root = .error f ↔
    (∃ why, DotEnv.load readers.vars tree env work = .error why ∧
      f = .because .invalidConfig why.message) ∨
    ∃ after, DotEnv.load readers.vars tree env work = .ok after ∧
      (loadConfig readers.config tree work flags.config = .error f ∨
        ∃ c, loadConfig readers.config tree work flags.config = .ok c ∧
          ofConfig work (c.applyEnvironment after) flags target root = .error f) := by
  rw [build]
  cases DotEnv.load readers.vars tree env work with
  | error why =>
    constructor
    · exact fun h => .inl ⟨why, rfl, (Except.error.inj h).symm⟩
    · rintro (⟨_, hwhy, rfl⟩ | ⟨_, hload, -⟩)
      · rw [Except.error.inj hwhy]
        rfl
      · exact absurd hload (by simp)
  | ok env =>
    simp [bind_eq_error_iff, pure, Except.pure]

/-- What a plan puts together. -/
theorem ofConfig_eq_ok_iff : ofConfig work c flags target root = .ok plan ↔
    ∃ parsed mode format, Target.parse target = .ok parsed ∧
      MatchMode.parse (firstNonEmpty [flags.mode, c.mode]) = .ok mode ∧
      Report.Format.parse (firstNonEmpty [flags.format, c.format]) = .ok format ∧
      plan = {
        request := {
          target := parsed
          root := Path.resolve work (root.getD (firstNonEmpty [c.root, defaultRoot]))
          ignoreFile := Path.resolve work
            (firstNonEmpty [flags.ignoreFile, c.ignoreFile, defaultIgnoreFile])
          ignore := c.ignore.getD [] ++ flags.ignore
          extensions :=
            if flags.extensions.isEmpty then (c.extensionsFor parsed.extension).getD []
            else flags.extensions
          mode }
        format
        unusedOnly := flags.unusedOnly } := by
  simp only [ofConfig, bind_eq_ok_iff, pure_eq_ok_iff]
  constructor
  · rintro ⟨parsed, htarget, mode, hmode, format, hformat, rfl⟩
    exact ⟨parsed, mode, format, htarget, hmode, hformat, rfl⟩
  · rintro ⟨parsed, mode, format, htarget, hmode, hformat, rfl⟩
    exact ⟨parsed, htarget, mode, hmode, format, hformat, rfl⟩

/-! ### What fails -/

theorem isClassified_of_parse_target (h : Target.parse target = .error f) :
    f.isClassified = true := by
  simp only [Target.parse] at h
  split_ifs at h with hblank hdirectory
  · rw [← Except.error.inj h]
    rfl
  · rw [← Except.error.inj h]
    rfl
  · split at h
    · split_ifs at h
    · exact absurd h (by simp)

theorem isClassified_of_parse_mode {s : Text} (h : MatchMode.parse s = .error f) :
    f.isClassified = true := by
  rw [MatchMode.parse] at h
  split_ifs at h
  rw [← Except.error.inj h]
  rfl

theorem isClassified_of_parse_format {s : Text} (h : Report.Format.parse s = .error f) :
    f.isClassified = true := by
  rw [Report.Format.parse] at h
  split at h
  · exact absurd h (by simp)
  · rw [← Except.error.inj h]
    rfl

theorem isClassified_of_ofConfig (h : ofConfig work c flags target root = .error f) :
    f.isClassified = true := by
  simp only [ofConfig, bind_eq_error_iff, pure, Except.pure, reduceCtorEq, and_false, exists_false,
    or_false] at h
  rcases h with h | ⟨_, _, h | ⟨_, _, h⟩⟩
  · exact isClassified_of_parse_target h
  · exact isClassified_of_parse_mode h
  · exact isClassified_of_parse_format h

/-- A configuration file is refused for a known cause, unless it cannot be
    read. -/
theorem loadFile_eq_error {path : Text} (h : Config.loadFile read tree path = .error f) :
    f.isClassified = true ∨ ∃ why, tree.read path = .error why ∧
      f = if why.has .notExist then .cause .configNotFound else why := by
  rw [Config.loadFile] at h
  cases hread : tree.read path with
  | error why =>
    rw [hread] at h
    exact .inr ⟨why, rfl, (Except.error.inj h).symm⟩
  | ok content =>
    simp only [hread] at h
    cases hdecode : read content with
    | error why =>
      rw [hdecode] at h
      rw [← Except.error.inj h]
      exact .inl rfl
    | ok c =>
      simp only [hdecode, Config.problem] at h
      cases hmode : MatchMode.parse c.mode with
      | ok mode => simp [hmode] at h
      | error why =>
        rw [hmode] at h
        rw [← Except.error.inj h, Failure.isClassified_within]
        exact .inl (isClassified_of_parse_mode hmode)

/-! ### The configuration file -/

/-- The configuration file that a run reads. -/
def configPath (work named : Text) : Text :=
  if named.isEmpty then Path.join work Config.fileName else Path.resolve work named

/-- What is told of a configuration file that cannot be used. -/
def configRefusal (named : Text) (why : Failure) : Failure :=
  if named.isEmpty then why.within (text "failed to load " ++ Config.fileName) else why

theorem isClassified_configRefusal : (configRefusal named f).isClassified = f.isClassified := by
  rw [configRefusal]
  split_ifs
  · exact Failure.isClassified_within
  · rfl

/-- The file in the working directory and a named one are loaded alike, and differ
    in what a missing file means. -/
theorem loadConfig_eq : loadConfig read tree work named =
    match Config.loadFile read tree (configPath work named) with
    | .ok c => .ok c
    | .error f =>
      if f.has .configNotFound then
        if named.isEmpty then .ok {}
        else .error (.because .invalidConfig (named ++ text ": " ++ f.message))
      else .error (configRefusal named f) := by
  rw [loadConfig, configPath]
  split_ifs with hnamed
  · rw [Config.load]
    cases Config.loadFile read tree (Path.join work Config.fileName) <;>
      simp only [configRefusal, if_pos hnamed]
  · cases Config.loadFile read tree (Path.resolve work named) <;>
      simp only [configRefusal, if_neg hnamed]

/-- A configuration file that cannot be read, although something stands at its
    place. -/
structure Unreadable (tree : Tree) (path : Text) (why : Failure) : Prop where
  refused : tree.read path = .error why
  present : why.has .notExist = false
  named : why.has .configNotFound = false

theorem loadConfig_eq_error (h : loadConfig read tree work named = .error f) :
    f.isClassified = true ∨ ∃ why, Unreadable tree (configPath work named) why ∧
      f = configRefusal named why := by
  rw [loadConfig_eq] at h
  cases hload : Config.loadFile read tree (configPath work named) with
  | ok c => simp [hload] at h
  | error g =>
    simp only [hload] at h
    split_ifs at h with hmissing hnamed
    · rw [← Except.error.inj h]
      exact .inl rfl
    · rw [← Except.error.inj h, isClassified_configRefusal]
      rcases loadFile_eq_error hload with hg | ⟨why, hread, rfl⟩
      · exact .inl hg
      · split_ifs at hmissing ⊢ with hwhy
        · exact absurd rfl hmissing
        · exact .inr ⟨why, ⟨hread, by simpa using hwhy, by simpa using hmissing⟩, rfl⟩

theorem Unreadable.loadConfig {why : Failure} (h : Unreadable tree (configPath work named) why) :
    Plan.loadConfig read tree work named = .error (configRefusal named why) := by
  have hload : Config.loadFile read tree (configPath work named) = .error why := by
    rw [Config.loadFile, h.refused]
    simp [h.present]
  rw [loadConfig_eq, hload]
  simp [h.named]

end Plan

end ImportFinder
