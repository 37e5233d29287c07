import ImportFinder.Proofs.Failure
import Mathlib.Tactic.SplitIfs

/-!
# Failures are told by their causes

What is written around a failure, and what it is joined with, should not change
what it is taken for. Its causes are the leaves of its tree (`Failure.Carries`).
Three of them have an exit code of their own, and one of these may lead the others
(`Failure.LedBy`): a missing root comes before an empty target, and that before a
bad configuration. The exit code of a failure is that of its leading cause
(`exitCode_eq_iff_ledBy`).

* No text around a failure changes its causes, and so neither the leading one.
* Of joined failures, those whose causes come behind change nothing
  (`Failure.LedBy.joined`).
* The outcome of a search is known from the exit code (`outcome_eq`), so that the
  two classifications never disagree.

Without a leading cause the message decides, and there a text around the failure
may matter.
-/

namespace ImportFinder

/-- A cause counts as itself, and an empty target and a missing root as bad input. -/
theorem Cause.countsAs_iff {c d : Cause} : d.countsAs c = true ↔
    d = c ∨ c = .userInput ∧ (d = .emptyTarget ∨ d = .rootNotFound) := by
  simp [countsAs]

namespace Failure

variable {c d : Cause} {f : Failure} {before after : Text} {all : List Failure}

/-- What holds of a failure with text around it if it holds of the failure, and of
    joined failures if it holds of all of them, holds of every failure. -/
@[elab_as_elim]
theorem induction {motive : Failure → Prop} (cause : ∀ c, motive (.cause c))
    (plain : ∀ message, motive (.plain message))
    (system : ∀ operation path fault, motive (.system operation path fault))
    (context : ∀ before inner after, motive inner → motive (.context before inner after))
    (joined : ∀ all, (∀ f ∈ all, motive f) → motive (.joined all)) : ∀ f, motive f
  | .cause c => cause c
  | .plain message => plain message
  | .system operation path fault => system operation path fault
  | .context before inner after =>
    context before inner after (Failure.induction cause plain system context joined inner)
  | .joined all => joined all fun f _ => Failure.induction cause plain system context joined f

/-- A cause is one of the leaves of a failure. -/
inductive Carries (c : Cause) : Failure → Prop
  | cause : Carries c (.cause c)
  | context {before after : Text} {inner : Failure} :
      Carries c inner → Carries c (.context before inner after)
  | joined {f : Failure} {all : List Failure} : f ∈ all → Carries c f → Carries c (.joined all)

theorem carries_cause_iff : (cause d).Carries c ↔ c = d := by
  refine ⟨fun h => ?_, fun h => h ▸ .cause⟩
  cases h
  rfl

theorem not_carries_plain (message : Text) : ¬ (plain message).Carries c := nofun

theorem not_carries_system (operation path : Text) (fault : Fault) :
    ¬ (system operation path fault).Carries c := nofun

theorem carries_context_iff : (context before f after).Carries c ↔ f.Carries c := by
  refine ⟨fun h => ?_, .context⟩
  cases h with
  | context hinner => exact hinner

theorem carries_joined_iff : (joined all).Carries c ↔ ∃ f ∈ all, f.Carries c := by
  constructor
  · intro h
    cases h with
    | joined hf hcause => exact ⟨_, hf, hcause⟩
  · rintro ⟨f, hf, hcause⟩
    exact .joined hf hcause

/-- A cause is found in a failure if one that counts as it is carried. Only a file
    that does not exist may also be found in a fault of the file system. -/
theorem has_iff (hc : c ≠ .notExist) :
    f.has c = true ↔ ∃ d, f.Carries d ∧ d.countsAs c = true := by
  induction f using Failure.induction with
  | cause d => simp [has, carries_cause_iff]
  | plain message => simp [has, not_carries_plain]
  | system operation path fault => simp [has, not_carries_system, hc]
  | context before inner after ih =>
    rw [has, ih]
    simp only [carries_context_iff]
  | joined all ih =>
    rw [has_joined_iff]
    constructor
    · rintro ⟨f, hf, hhas⟩
      obtain ⟨d, hd, hcounts⟩ := (ih f hf).1 hhas
      exact ⟨d, .joined hf hd, hcounts⟩
    · rintro ⟨d, hd, hcounts⟩
      obtain ⟨f, hf, hd⟩ := carries_joined_iff.1 hd
      exact ⟨f, hf, (ih f hf).2 ⟨d, hd, hcounts⟩⟩

theorem has_iff_carries (hc : c ≠ .notExist) (hinput : c ≠ .userInput) :
    f.has c = true ↔ f.Carries c := by
  rw [has_iff hc]
  constructor
  · rintro ⟨d, hd, hcounts⟩
    rcases Cause.countsAs_iff.1 hcounts with rfl | ⟨h, _⟩
    · exact hd
    · exact absurd h hinput
  · exact fun h => ⟨c, h, Cause.countsAs_iff.2 (.inl rfl)⟩

/-- Bad input is found where it is carried, or an empty target or a missing root
    is. -/
theorem has_userInput_iff : f.has .userInput = true ↔
    f.Carries .userInput ∨ f.Carries .emptyTarget ∨ f.Carries .rootNotFound := by
  rw [has_iff (by decide)]
  constructor
  · rintro ⟨d, hd, hcounts⟩
    rcases Cause.countsAs_iff.1 hcounts with rfl | ⟨_, rfl | rfl⟩
    · exact .inl hd
    · exact .inr (.inl hd)
    · exact .inr (.inr hd)
  · rintro (h | h | h) <;> exact ⟨_, h, by decide⟩

end Failure

/-! ### The leading cause -/

/-- Which cause comes first; those without an exit code of their own come last. -/
def Cause.priority : Cause → Nat
  | .rootNotFound => 3
  | .emptyTarget => 2
  | .invalidConfig => 1
  | _ => 0

/-- The exit code that a cause asks for. -/
def Cause.exitCode : Cause → ExitCode
  | .rootNotFound => .rootNotFound
  | .emptyTarget => .emptyTarget
  | .invalidConfig => .config
  | _ => .general

namespace Failure

variable {c d : Cause} {f : Failure} {before after : Text} {all : List Failure}

/-- No cause in a failure comes before a given one. -/
def NoneBefore (f : Failure) (c : Cause) : Prop := ∀ d, f.Carries d → d.priority ≤ c.priority

/-- A failure carries a cause, and none that comes before it. -/
structure LedBy (f : Failure) (c : Cause) : Prop where
  carries : f.Carries c
  noneBefore : f.NoneBefore c

theorem ledBy_rootNotFound_iff : f.LedBy .rootNotFound ↔ f.Carries .rootNotFound := by
  refine ⟨LedBy.carries, fun h => ⟨h, fun d _ => ?_⟩⟩
  cases d <;> decide

theorem ledBy_emptyTarget_iff :
    f.LedBy .emptyTarget ↔ f.Carries .emptyTarget ∧ ¬ f.Carries .rootNotFound := by
  refine ⟨fun h => ⟨h.carries, fun hroot => absurd (h.noneBefore _ hroot) (by decide)⟩, ?_⟩
  rintro ⟨hempty, hroot⟩
  refine ⟨hempty, fun d hd => ?_⟩
  cases d with
  | rootNotFound => exact absurd hd hroot
  | _ => decide

theorem ledBy_invalidConfig_iff : f.LedBy .invalidConfig ↔
    f.Carries .invalidConfig ∧ ¬ f.Carries .emptyTarget ∧ ¬ f.Carries .rootNotFound := by
  refine ⟨fun h => ⟨h.carries, fun hempty => absurd (h.noneBefore _ hempty) (by decide),
    fun hroot => absurd (h.noneBefore _ hroot) (by decide)⟩, ?_⟩
  rintro ⟨hconfig, hempty, hroot⟩
  refine ⟨hconfig, fun d hd => ?_⟩
  cases d with
  | rootNotFound => exact absurd hd hroot
  | emptyTarget => exact absurd hd hempty
  | _ => decide

/-- Among the causes of a failure one comes first. -/
theorem exists_ledBy (hd : f.Carries d) (hpriority : 0 < d.priority) :
    ∃ c, f.LedBy c ∧ 0 < c.priority := by
  by_cases hroot : f.Carries .rootNotFound
  · exact ⟨_, ledBy_rootNotFound_iff.2 hroot, by decide⟩
  by_cases hempty : f.Carries .emptyTarget
  · exact ⟨_, ledBy_emptyTarget_iff.2 ⟨hempty, hroot⟩, by decide⟩
  · -- Only a bad configuration is left.
    have hconfig : f.Carries .invalidConfig := by
      cases d with
      | rootNotFound => exact absurd hd hroot
      | emptyTarget => exact absurd hd hempty
      | invalidConfig => exact hd
      | _ => exact absurd hpriority (by decide)
    exact ⟨_, ledBy_invalidConfig_iff.2 ⟨hconfig, hempty, hroot⟩, by decide⟩

/-- A text around a failure does not change the leading cause. -/
theorem LedBy.context (h : f.LedBy c) (before after : Text) :
    (context before f after).LedBy c :=
  ⟨.context h.carries, fun d hd => h.noneBefore d (carries_context_iff.1 hd)⟩

/-- Joined failures are led by the leading cause of one of them if no cause in the
    others comes before it. -/
theorem LedBy.joined (h : f.LedBy c) (hf : f ∈ all) (hall : ∀ g ∈ all, g.NoneBefore c) :
    (joined all).LedBy c := by
  refine ⟨.joined hf h.carries, fun d hd => ?_⟩
  obtain ⟨g, hg, hd⟩ := carries_joined_iff.1 hd
  exact hall g hg d hd

end Failure

/-! ### Exit codes and outcomes -/

variable {c : Cause} {f g : Failure} {e : Option Failure}

theorem exitCode_eq_success_iff : exitCode e = .success ↔ e = none := by
  cases e with
  | none => simp [exitCode]
  | some f =>
    rw [exitCode]
    split_ifs <;> simp

/-- The exit code of a failure is that of its leading cause. -/
theorem exitCode_eq_iff_ledBy (hc : 0 < c.priority) :
    exitCode (some f) = c.exitCode ↔ f.LedBy c := by
  have hroot : f.has .rootNotFound = true ↔ f.Carries .rootNotFound :=
    Failure.has_iff_carries (by decide) (by decide)
  have hempty : f.has .emptyTarget = true ↔ f.Carries .emptyTarget :=
    Failure.has_iff_carries (by decide) (by decide)
  have hconfig : f.has .invalidConfig = true ↔ f.Carries .invalidConfig :=
    Failure.has_iff_carries (by decide) (by decide)
  cases c with
  | rootNotFound =>
    rw [Failure.ledBy_rootNotFound_iff, exitCode]
    split_ifs <;> simp_all [Cause.exitCode]
  | emptyTarget =>
    rw [Failure.ledBy_emptyTarget_iff, exitCode]
    split_ifs <;> simp_all [Cause.exitCode]
  | invalidConfig =>
    rw [Failure.ledBy_invalidConfig_iff, exitCode]
    split_ifs <;> simp_all [Cause.exitCode]
  | _ => exact absurd hc (by decide)

/-- Failures with the same leading cause have the same exit code. -/
theorem exitCode_eq_of_ledBy (hc : 0 < c.priority) (hf : f.LedBy c) (hg : g.LedBy c) :
    exitCode (some f) = exitCode (some g) := by
  rw [(exitCode_eq_iff_ledBy hc).2 hf, (exitCode_eq_iff_ledBy hc).2 hg]

theorem ExitCode.number_inj {c d : ExitCode} : c.number = d.number ↔ c = d := by
  cases c <;> cases d <;> decide

/-- The outcome of a search that ends with an exit code. -/
def ExitCode.outcome : ExitCode → Outcome
  | .success => .success
  | .rootNotFound => .rootNotFound
  | .emptyTarget => .emptyTarget
  | _ => .failed

/-- The outcome of a search is known from its exit code. -/
theorem outcome_eq (e : Option Failure) : outcome e = (exitCode e).outcome := by
  cases e with
  | none => rfl
  | some f =>
    rw [outcome, exitCode]
    split_ifs <;> rfl

theorem ExitCode.outcome_eq_iff {x : ExitCode} :
    (x.outcome = .success ↔ x = .success) ∧ (x.outcome = .rootNotFound ↔ x = .rootNotFound) ∧
      (x.outcome = .emptyTarget ↔ x = .emptyTarget) := by
  cases x <;> decide

/-- Failures are told by their causes. There is no failure exactly if the exit code
    is `0`, and exactly if the outcome is a success. The exit code is `20`, and the
    outcome a missing root, if a missing root is carried; `21`, and an empty target,
    if an empty target is carried and no missing root; `10` if a bad configuration
    is carried and neither of the two. Bad input is found if it is carried, or one
    of these two is. So text around a failure with such a cause changes neither the
    exit code nor the outcome, and no more does joining it with failures in which
    no cause comes before its own. -/
theorem classification_stable :
    (∀ e, ((exitCode e).number = 0 ↔ e = none) ∧ (outcome e = .success ↔ e = none)) ∧
    (∀ f : Failure,
      ((exitCode (some f)).number = 20 ↔ f.Carries .rootNotFound) ∧
      (outcome (some f) = .rootNotFound ↔ f.Carries .rootNotFound) ∧
      ((exitCode (some f)).number = 21 ↔ f.Carries .emptyTarget ∧ ¬ f.Carries .rootNotFound) ∧
      (outcome (some f) = .emptyTarget ↔ f.Carries .emptyTarget ∧ ¬ f.Carries .rootNotFound) ∧
      ((exitCode (some f)).number = 10 ↔
        f.Carries .invalidConfig ∧ ¬ f.Carries .emptyTarget ∧ ¬ f.Carries .rootNotFound) ∧
      (f.has .userInput = true ↔
        f.Carries .userInput ∨ f.Carries .emptyTarget ∨ f.Carries .rootNotFound)) ∧
    (∀ (f : Failure) (c : Cause), f.Carries c → 0 < c.priority → ∀ before after,
      exitCode (some (.context before f after)) = exitCode (some f) ∧
      outcome (some (.context before f after)) = outcome (some f)) ∧
    (∀ (f : Failure) (c : Cause), f.LedBy c → 0 < c.priority → ∀ all, f ∈ all →
      (∀ g ∈ all, g.NoneBefore c) →
      exitCode (Failure.join? all) = exitCode (some f) ∧
      outcome (Failure.join? all) = outcome (some f)) := by
  have hroot (f : Failure) :=
    (exitCode_eq_iff_ledBy (f := f) (by decide)).trans Failure.ledBy_rootNotFound_iff
  have hempty (f : Failure) :=
    (exitCode_eq_iff_ledBy (f := f) (by decide)).trans Failure.ledBy_emptyTarget_iff
  have hconfig (f : Failure) :=
    (exitCode_eq_iff_ledBy (f := f) (by decide)).trans Failure.ledBy_invalidConfig_iff
  refine ⟨fun e => ⟨?_, ?_⟩, fun f => ⟨?_, ?_, ?_, ?_, ?_, Failure.has_userInput_iff⟩,
    fun f d hd hpriority before after => ?_, fun f c hf hc all hmem hall => ?_⟩
  · exact (ExitCode.number_inj (d := .success)).trans exitCode_eq_success_iff
  · rw [outcome_eq, ExitCode.outcome_eq_iff.1, exitCode_eq_success_iff]
  · exact (ExitCode.number_inj (d := .rootNotFound)).trans (hroot f)
  · rw [outcome_eq, ExitCode.outcome_eq_iff.2.1]
    exact hroot f
  · exact (ExitCode.number_inj (d := .emptyTarget)).trans (hempty f)
  · rw [outcome_eq, ExitCode.outcome_eq_iff.2.2]
    exact hempty f
  · exact (ExitCode.number_inj (d := .config)).trans (hconfig f)
  · obtain ⟨c, hled, hc⟩ := Failure.exists_ledBy hd hpriority
    have hcode := exitCode_eq_of_ledBy hc (hled.context before after) hled
    exact ⟨hcode, by rw [outcome_eq, outcome_eq, hcode]⟩
  · have hjoin := Failure.join?_eq_some_iff.2 ⟨List.ne_nil_of_mem hmem, rfl⟩
    have hcode := exitCode_eq_of_ledBy hc (hf.joined hmem hall) hf
    rw [← hjoin] at hcode
    exact ⟨hcode, by rw [outcome_eq, outcome_eq, hcode]⟩

/-- A bad configuration in a text that looks like misuse of the command line, and
    the same beside an empty target. -/
theorem classification_stable_sample :
    exitCode (some (.context (text "unknown flag: ") (.cause .invalidConfig) [])) =
      exitCode (some (.cause .invalidConfig)) ∧
    exitCode (Failure.join? [.plain (text "unknown flag"), .cause .invalidConfig,
      (Failure.cause .emptyTarget).within (text "search")]) =
        exitCode (some ((Failure.cause .emptyTarget).within (text "search"))) := by
  have hled : ((Failure.cause .emptyTarget).within (text "search")).LedBy .emptyTarget := by
    refine Failure.LedBy.context ⟨.cause, fun d hd => ?_⟩ _ _
    exact Nat.le_of_eq (congrArg Cause.priority (Failure.carries_cause_iff.1 hd))
  have hall : ∀ g ∈ [Failure.plain (text "unknown flag"), .cause .invalidConfig,
      (Failure.cause .emptyTarget).within (text "search")], g.NoneBefore .emptyTarget := by
    intro g hg
    rcases List.mem_cons.1 hg with rfl | hg
    · exact fun d hd => absurd hd (Failure.not_carries_plain _)
    rcases List.mem_cons.1 hg with rfl | hg
    · intro d hd
      rw [Failure.carries_cause_iff.1 hd]
      decide
    · rw [List.mem_singleton.1 hg]
      exact hled.noneBefore
  obtain ⟨_, _, hcontext, hjoin⟩ := classification_stable
  refine ⟨(hcontext _ .invalidConfig .cause (by decide) _ _).1, ?_⟩
  exact (hjoin _ .emptyTarget hled (by decide) _ (by simp) hall).1

/-- Without such a cause the text around a failure matters. -/
example : exitCode (some (.plain (text "boom"))) = .general ∧
    exitCode (some ((Failure.plain (text "boom")).within (text "unknown flag"))) = .usage := by
  decide +kernel

end ImportFinder
