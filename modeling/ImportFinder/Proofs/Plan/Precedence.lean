import ImportFinder.Builtin
import ImportFinder.Proofs.Environment
import ImportFinder.Proofs.Plan.Build
import ImportFinder.Proofs.Text.Lower
import ImportFinder.Proofs.Text.Split
import ImportFinder.Tree.Memory

/-!
# Which source a setting comes from

A setting may come from the arguments, the flags, the environment, the
configuration, or be the default, in this order. What counts as given differs: an
argument may give the empty text as the root, a variable may not, and a variable
that is set to the empty text gives nothing, although it hides what the working
directory's file says of it. `Sources` has, for every setting, the list of what
the sources give, the strongest first, and `firstGiven` is what comes of it.

The two files are sources through what their readers make of them, whatever the
readers are. All that is used is that a file of variables comes to one value for a
name (`Variables`).

* `DecidedAlike.firstGiven_eq`: sources behind one that gives a value are never
  looked at;
* `build_precedence`: a plan follows its sources, and two plans agree in every
  setting whose sources agree up to one that gives a value.
-/

namespace ImportFinder

/-! ### Sources in their order -/

section

variable {α : Type} {a : α} {l l' : List (Option α)}

/-- What a text or a list gives: nothing, if it is empty. -/
def given : List α → Option (List α)
  | [] => none
  | a :: more => some (a :: more)

/-- What the first source gives that gives anything. -/
def firstGiven : List (Option α) → Option α
  | [] => none
  | some a :: _ => some a
  | none :: more => firstGiven more

theorem firstGiven_singleton (x : Option α) : firstGiven [x] = x := by
  cases x <;> rfl

/-- Sources that are the same up to one that gives a value. -/
def DecidedAlike (l l' : List (Option α)) : Prop :=
  ∃ front back back' a, l = front ++ some a :: back ∧ l' = front ++ some a :: back'

/-- Sources behind one that gives a value do not count. -/
theorem firstGiven_append_some (front back : List (Option α)) :
    firstGiven (front ++ some a :: back) = firstGiven (front ++ [some a]) := by
  induction front with
  | nil => rfl
  | cons x front ih =>
    cases x with
    | none => exact ih
    | some b => rfl

theorem DecidedAlike.firstGiven_eq (h : DecidedAlike l l') : firstGiven l = firstGiven l' := by
  obtain ⟨front, back, back', a, rfl, rfl⟩ := h
  rw [firstGiven_append_some, firstGiven_append_some front back']

theorem DecidedAlike.eq {b b' : α} (h : DecidedAlike l l') (hb : firstGiven l = some b)
    (hb' : firstGiven l' = some b') : b = b' := by
  rw [← h.firstGiven_eq, hb] at hb'
  exact Option.some.inj hb'

end

namespace Plan

/-- What a search is planned from. -/
structure Setup where
  readers : Readers
  tree : Tree
  /-- The working directory. -/
  work : Text
  env : Environment := {}
  flags : Flags := {}
  target : Text
  /-- The second argument, if there is one. -/
  root : Option Text := none

/-- The plan for a setup, and the environment with the variables of the working
    directory's file. -/
def Setup.build (u : Setup) : Except Failure (Plan × Environment) :=
  Plan.build u.readers u.tree u.work u.env u.flags u.target u.root

/-- Where the settings of a plan come from. -/
structure Sources where
  /-- The second argument, if there is one. -/
  root : Option Text
  flags : Flags
  /-- The environment of the program. -/
  env : Environment
  /-- The variables of the working directory's file. -/
  vars : Variables
  config : Config
  deriving DecidableEq

/-- The sources of a setup. -/
def Setup.sources (u : Setup) : Except Failure Sources := do
  let vars ← DotEnv.definitions u.readers.vars u.tree u.work
  let config ← loadConfig u.readers.config u.tree u.work u.flags.config
  return ⟨u.root, u.flags, u.env, vars, config⟩

namespace Sources

/-- The value of a variable, empty if it has none. The file of variables counts for
    those that are not set at all, unless its value holds a zero byte, which no
    variable can have. -/
def valueOf (s : Sources) (name : String) : Text :=
  ((s.env.get? (text name)).or
    ((List.lookup (text name) s.vars.entries).filter fun value => !value.contains 0)).getD []

/-- The sources of the match mode. -/
def modes (s : Sources) : List (Option Text) :=
  [given s.flags.mode, given (s.valueOf "FIR_MODE"), given s.config.mode,
    some MatchMode.path.name]

/-- The sources of the output format. -/
def formats (s : Sources) : List (Option Text) :=
  [given s.flags.format, given (s.valueOf "FIR_FORMAT"), given s.config.format,
    some Report.Format.text.name]

/-- The sources of the ignore file. -/
def ignoreFiles (s : Sources) : List (Option Text) :=
  [given s.flags.ignoreFile, given (s.valueOf "FIR_IGNORE_FILE"), given s.config.ignoreFile,
    some defaultIgnoreFile]

/-- The sources of the root. -/
def roots (s : Sources) : List (Option Text) :=
  [s.root, given (s.valueOf "FIR_ROOT"), given s.config.root, some defaultRoot]

/-- The sources of the list of extensions for a target with an extension. -/
def extensions (s : Sources) (extension : Text) : List (Option (List Text)) :=
  [given s.flags.extensions, given (s.config.extensions.getD []),
    if extension.isEmpty then none
    else (List.lookup (Text.lower extension) (s.config.extensionMap.getD [])).join]

end Sources

variable {u u' : Setup} {s s' : Sources} {plan plan' : Plan} {after after' : Environment}

theorem Setup.sources_eq_ok_iff : u.sources = .ok s ↔ ∃ vars c,
    DotEnv.definitions u.readers.vars u.tree u.work = .ok vars ∧
    loadConfig u.readers.config u.tree u.work u.flags.config = .ok c ∧
    s = ⟨u.root, u.flags, u.env, vars, c⟩ := by
  simp only [sources, bind_eq_ok_iff, pure_eq_ok_iff, eq_comm (b := s)]
  constructor
  · rintro ⟨vars, hvars, c, hc, rfl⟩
    exact ⟨vars, c, hvars, hc, rfl⟩
  · rintro ⟨vars, c, hvars, hc, rfl⟩
    exact ⟨vars, hvars, c, hc, rfl⟩

/-- A plan has every setting from its sources. -/
structure Follows (plan : Plan) (u : Setup) (s : Sources) : Prop where
  target : Target.parse u.target = .ok plan.request.target
  mode : ∃ name, firstGiven s.modes = some name ∧ MatchMode.parse name = .ok plan.request.mode
  format : ∃ name, firstGiven s.formats = some name ∧ Report.Format.parse name = .ok plan.format
  ignoreFile : ∃ path, firstGiven s.ignoreFiles = some path ∧
    plan.request.ignoreFile = Path.resolve u.work path
  root : ∃ path, firstGiven s.roots = some path ∧ plan.request.root = Path.resolve u.work path
  extensions : plan.request.extensions =
    (firstGiven (s.extensions plan.request.target.extension)).getD []
  ignore : plan.request.ignore = s.config.ignore.getD [] ++ s.flags.ignore
  unusedOnly : plan.unusedOnly = s.flags.unusedOnly

/-- Two plans agree in every setting that their sources decide alike. -/
structure Agrees (plan plan' : Plan) (s s' : Sources) : Prop where
  mode : DecidedAlike s.modes s'.modes → plan.request.mode = plan'.request.mode
  format : DecidedAlike s.formats s'.formats → plan.format = plan'.format
  ignoreFile : DecidedAlike s.ignoreFiles s'.ignoreFiles →
    plan.request.ignoreFile = plan'.request.ignoreFile
  root : DecidedAlike s.roots s'.roots → plan.request.root = plan'.request.root
  extensions : DecidedAlike (s.extensions plan.request.target.extension)
      (s'.extensions plan'.request.target.extension) →
    plan.request.extensions = plan'.request.extensions

/-- Plans that follow their sources in the same working directory agree where these
    are decided alike. -/
theorem Follows.agrees (h : plan.Follows u s) (h' : plan'.Follows u' s')
    (hwork : u.work = u'.work) : plan.Agrees plan' s s' where
  mode hmodes := by
    obtain ⟨name, hname, hmode⟩ := h.mode
    obtain ⟨name', hname', hmode'⟩ := h'.mode
    obtain rfl := hmodes.eq hname hname'
    exact Except.ok.inj (hmode.symm.trans hmode')
  format hformats := by
    obtain ⟨name, hname, hformat⟩ := h.format
    obtain ⟨name', hname', hformat'⟩ := h'.format
    obtain rfl := hformats.eq hname hname'
    exact Except.ok.inj (hformat.symm.trans hformat')
  ignoreFile hfiles := by
    obtain ⟨path, hpath, hfile⟩ := h.ignoreFile
    obtain ⟨path', hpath', hfile'⟩ := h'.ignoreFile
    rw [hfile, hfile', hwork, hfiles.eq hpath hpath']
  root hroots := by
    obtain ⟨path, hpath, hroot⟩ := h.root
    obtain ⟨path', hpath', hroot'⟩ := h'.root
    rw [hroot, hroot', hwork, hroots.eq hpath hpath']
  extensions hlists := by
    rw [h.extensions, h'.extensions, hlists.firstGiven_eq]

/-! ### What a plan puts together -/

/-- A variable of the environment that a plan is made in. -/
theorem get_setDefaults (s : Sources) {name : String}
    (hname : Environment.isSettable (text name) [] = true) :
    (s.env.setDefaults s.vars).get (text name) = s.valueOf name := by
  have hsettable : Environment.isSettable (text name) = fun value => !value.contains 0 := by
    funext value
    rw [Environment.isSettable, Bool.and_eq_true] at hname
    rw [Environment.isSettable, hname.1, Bool.true_and]
  rw [Environment.get, Environment.get?_setDefaults, hsettable, Sources.valueOf]

/-- What three sources and a default come to, once the environment has been applied
    to the configuration. -/
theorem firstGiven_valueOf (s : Sources) {name : String}
    (hname : Environment.isSettable (text name) [] = true) (flag field default : Text) :
    firstGiven [given flag, given (s.valueOf name), given field, some default] =
      some (firstNonEmpty
        [flag, Config.overridden (s.env.setDefaults s.vars) name field, default]) := by
  rw [Config.overridden, get_setDefaults s hname]
  cases flag <;> cases s.valueOf name <;> cases field <;> cases default <;> rfl

theorem parse_mode_default (a b : Text) :
    MatchMode.parse (firstNonEmpty [a, b, MatchMode.path.name]) =
      MatchMode.parse (firstNonEmpty [a, b]) := by
  cases a <;> cases b <;> rfl

theorem parse_format_default (a b : Text) :
    Report.Format.parse (firstNonEmpty [a, b, Report.Format.text.name]) =
      Report.Format.parse (firstNonEmpty [a, b]) := by
  cases a <;> cases b <;> rfl

/-- The extension of a target has no dot. -/
theorem dot_not_mem_extension {raw : Text} {target : Target} (h : Target.parse raw = .ok target) :
    Text.dot ∉ target.extension := by
  simp only [Target.parse] at h
  split_ifs at h
  split at h
  · next before extension hsplit =>
    split_ifs at h
    · obtain rfl := Except.ok.inj h
      exact List.not_mem_nil
    · obtain rfl := Except.ok.inj h
      exact (Text.splitLast_eq_some_iff.1 hsplit).2
  · obtain rfl := Except.ok.inj h
    exact List.not_mem_nil

/-- Without a dot in it, an extension is looked up as it is, in lower case. -/
theorem extensionsFor_eq {c : Config} {extension : Text} (hdot : Text.dot ∉ extension) :
    c.extensionsFor extension = firstGiven [given (c.extensions.getD []),
      if extension.isEmpty then none
      else (List.lookup (Text.lower extension) (c.extensionMap.getD [])).join] := by
  have hkey : ∀ rest, Text.lower extension ≠ 0x2E :: rest := fun rest h =>
    Text.dot_not_mem_lower hdot (h ▸ List.mem_cons_self)
  have hempty : (Text.lower extension).isEmpty = extension.isEmpty := by
    rw [Bool.eq_iff_iff, List.isEmpty_iff, List.isEmpty_iff, Text.lower_eq_nil_iff]
  rw [Config.extensionsFor]
  split
  · next e more hlist =>
    rw [hlist]
    rfl
  · next hlist =>
    have hgiven : given (c.extensions.getD []) = none := by
      cases hlists : c.extensions with
      | none => rfl
      | some all =>
        cases all with
        | nil => rfl
        | cons e more => exact absurd hlists (hlist e more)
    split
    · next rest hlower => exact absurd hlower (hkey rest)
    · dsimp only
      rw [hempty, hgiven, firstGiven, firstGiven_singleton]

/-- A plan that is built follows the sources of its setup. -/
theorem follows_of_build (h : u.build = .ok (plan, after)) (hs : u.sources = .ok s) :
    plan.Follows u s := by
  obtain ⟨vars, c, hvars, hc, rfl⟩ := Setup.sources_eq_ok_iff.1 hs
  obtain ⟨hload, c', hc', hplan⟩ := build_eq_ok_iff.1 h
  obtain rfl := Except.ok.inj (hc.symm.trans hc')
  rw [DotEnv.load, hvars] at hload
  obtain rfl := Except.ok.inj hload
  obtain ⟨target, mode, format, htarget, hmode, hformat, rfl⟩ := ofConfig_eq_ok_iff.1 hplan
  have hscalar {name : String} (hname : Environment.isSettable (text name) [] = true) :=
    firstGiven_valueOf ⟨u.root, u.flags, u.env, vars, c⟩ hname
  exact {
    target := htarget
    mode := ⟨_, hscalar (by decide) _ _ _, (parse_mode_default _ _).trans hmode⟩
    format := ⟨_, hscalar (by decide) _ _ _, (parse_format_default _ _).trans hformat⟩
    ignoreFile := ⟨_, hscalar (by decide) _ _ _, rfl⟩
    root := by
      cases hroot : u.root with
      | none => exact ⟨_, hscalar (by decide) [] _ _, rfl⟩
      | some path => exact ⟨path, rfl, rfl⟩
    extensions := by
      dsimp only [Sources.extensions]
      rw [extensionsFor_eq (dot_not_mem_extension htarget)]
      cases u.flags.extensions <;> rfl
    ignore := rfl
    unusedOnly := rfl }

/-- A plan has every setting from its sources, and two plans in the same working
    directory agree in every setting that their sources decide alike. -/
theorem build_precedence (h : u.build = .ok (plan, after)) :
    ∃ s, u.sources = .ok s ∧ plan.Follows u s ∧
      ∀ (u' : Setup) (plan' : Plan) (after' : Environment) (s' : Sources),
        u'.build = .ok (plan', after') → u'.sources = .ok s' → u.work = u'.work →
          plan.Agrees plan' s s' := by
  obtain ⟨hload, c, hc, -⟩ := build_eq_ok_iff.1 h
  rw [DotEnv.load] at hload
  cases hvars : DotEnv.definitions u.readers.vars u.tree u.work with
  | error f => simp [hvars] at hload
  | ok vars =>
    have hs := Setup.sources_eq_ok_iff.2 ⟨vars, c, hvars, hc, rfl⟩
    have hfollows := follows_of_build h hs
    exact ⟨_, hs, hfollows, fun u' plan' after' s' h' hs' hwork =>
      hfollows.agrees (follows_of_build h' hs') hwork⟩

/-- A project with a file of variables and a configuration. -/
def sampleTree (vars config : Text) : Tree :=
  (((Memory.empty (text "/w")).addFile (text ".env") vars).addFile Config.fileName config).tree

/-- A setup in which every source says something. -/
def sampleSetup (vars : Text) : Setup where
  readers := .builtin
  tree := sampleTree vars (text "root: app\nmode: word\nextension_map:\n  js: [ts]\n")
  work := text "/w"
  env := ⟨[(text "FIR_FORMAT", [])]⟩
  flags := { mode := text "path" }
  target := text "utils.JS"

theorem build_precedence_sample : ∃ plan after plan' after' s s',
    (sampleSetup (text "FIR_MODE=word\nFIR_ROOT=lib\n")).build = .ok (plan, after) ∧
    (sampleSetup (text "FIR_FORMAT=json\n")).build = .ok (plan', after') ∧
    (sampleSetup (text "FIR_FORMAT=json\n")).sources = .ok s' ∧
    plan.Follows (sampleSetup (text "FIR_MODE=word\nFIR_ROOT=lib\n")) s ∧
    DecidedAlike s.modes s'.modes ∧ plan.request.mode = plan'.request.mode := by
  obtain ⟨⟨plan, after⟩, h⟩ := Option.isSome_iff_exists.1 (show
    (sampleSetup (text "FIR_MODE=word\nFIR_ROOT=lib\n")).build.toOption.isSome = true by
      decide +kernel)
  obtain ⟨⟨plan', after'⟩, h'⟩ := Option.isSome_iff_exists.1 (show
    (sampleSetup (text "FIR_FORMAT=json\n")).build.toOption.isSome = true by decide +kernel)
  obtain ⟨s', hs'⟩ := Option.isSome_iff_exists.1 (show
    (sampleSetup (text "FIR_FORMAT=json\n")).sources.toOption.isSome = true by decide +kernel)
  have hbuild := eq_ok_of_toOption h
  have hbuild' := eq_ok_of_toOption h'
  have hsources' := eq_ok_of_toOption hs'
  obtain ⟨s, hs, hfollows, hagrees⟩ := build_precedence hbuild
  -- Both have the flag above everything else.
  have hmodes : DecidedAlike s.modes s'.modes := by
    obtain ⟨vars, c, -, -, rfl⟩ := Setup.sources_eq_ok_iff.1 hs
    obtain ⟨vars', c', -, -, rfl⟩ := Setup.sources_eq_ok_iff.1 hsources'
    exact ⟨[], _, _, text "path", rfl, rfl⟩
  exact ⟨plan, after, plan', after', s, s', hbuild, hbuild', hsources', hfollows, hmodes,
    (hagrees _ _ _ _ hbuild' hsources' rfl).mode hmodes⟩

/-- A setup with extensions for targets without one, and a variable that cannot be
    set. -/
def strangeSetup : Setup where
  readers := .builtin
  tree := sampleTree (text "FIR_IGNORE_FILE=a" ++ [0] ++ text "b\n")
    (text "extension_map:\n  \"\": [js]\n")
  work := text "/w"
  target := text "utils"

/-- The entry for the empty extension is not looked up, and the variable is
    passed over, though both are there. -/
theorem build_strangeSetup : ∃ plan after s, strangeSetup.build = .ok (plan, after) ∧
    strangeSetup.sources = .ok s ∧
    plan.request.extensions ≠
      (firstGiven [given s.flags.extensions, given (s.config.extensions.getD []),
        (List.lookup (Text.lower plan.request.target.extension)
          (s.config.extensionMap.getD [])).join]).getD [] ∧
    plan.request.ignoreFile ≠ Path.resolve strangeSetup.work
      (firstNonEmpty [s.flags.ignoreFile,
        ((s.env.get? (text "FIR_IGNORE_FILE")).or
          (List.lookup (text "FIR_IGNORE_FILE") s.vars.entries)).getD [],
        s.config.ignoreFile, defaultIgnoreFile]) := by
  refine ⟨{
      request := {
        target := { name := text "utils" }
        root := text "/w/src"
        ignoreFile := text "/w/.gitignore"
        mode := .path }
      format := .text
      unusedOnly := false }, {}, {
      root := none
      flags := {}
      env := {}
      vars := ⟨[(text "FIR_IGNORE_FILE", text "a" ++ [0] ++ text "b")], by decide⟩
      config := { extensionMap := some [([], some [text "js"])] } }, ?_, ?_, ?_, ?_⟩
  · exact eq_ok_of_toOption (by decide +kernel)
  · exact eq_ok_of_toOption (by decide +kernel)
  · decide +kernel
  · decide +kernel

end Plan

end ImportFinder
