import ImportFinder.Proofs.Failure
import ImportFinder.Proofs.Search.Answer

/-!
# What keeps a search from starting

A search looks at its request, then at what stands at its root, and after that it
cannot fail any more. It does both before it logs, lists or reads anything, so a
search that fails leaves no trace (`Search.course`). The walk looks at the root
once more when the search has already logged with what it starts; but that is the
same look, and it finds nothing (`walk_eq`).

* `Request.check_eq_none_iff`, `Search.rootProblem_eq_none_iff`: what passes the
  two checks;
* `Refusal.of_check`, `Refusal.of_rootProblem`: what the failures tell. A missing
  name comes first, then a bad mode, then a bad root;
* `course_eq`: the search with everything that it logs is the search;
* `fails_iff_bad_input`: when a search fails, and that nothing but what stands at
  the root matters for it.
-/

namespace ImportFinder

/-! ### The request -/

namespace Request

variable {r : Request} {f : Failure} {c : Cause}

/-- The target has a name. -/
def HasName (r : Request) : Prop := Text.trim r.target.name ≠ []

/-- The mode is one of the modes, or none was given. -/
def HasMode (r : Request) : Prop := r.mode ∈ [MatchMode.unset, MatchMode.path, MatchMode.word]

theorem mem_problems_iff : f ∈ r.problems ↔ ¬ r.HasName ∧ f = .cause .emptyTarget ∨
    ¬ r.HasMode ∧ f = .context (text "unknown match mode " ++ Text.quoted r.mode.name ++ text ": ")
      (.cause .invalidConfig) [] := by
  have hname : ¬ r.HasName ↔ (Text.trim r.target.name).isEmpty = true := by
    rw [HasName, not_not, List.isEmpty_iff]
  have hmode : ¬ r.HasMode ↔ r.mode ≠ .unset ∧ r.mode ≠ .path ∧ r.mode ≠ .word := by
    simp [HasMode]
  rw [hname, hmode, problems, List.mem_append]
  refine or_congr ?_ ?_
  · split_ifs with h <;> simp [h]
  · split_ifs with h <;> simp [h]

theorem check_eq_none_iff : r.check = none ↔ r.HasName ∧ r.HasMode := by
  have hnil : r.check = none ↔ ∀ f, f ∉ r.problems := by
    rw [← List.eq_nil_iff_forall_not_mem, check]
    cases r.problems <;> simp [Failure.join?]
  simp only [hnil, mem_problems_iff]
  constructor
  · intro h
    exact ⟨by_contra fun hname => h _ (.inl ⟨hname, rfl⟩),
      by_contra fun hmode => h _ (.inr ⟨hmode, rfl⟩)⟩
  · rintro ⟨hname, hmode⟩ f (⟨hnot, _⟩ | ⟨hnot, _⟩)
    · exact hnot hname
    · exact hnot hmode

/-- The failure of a bad request carries what is wrong with it, and nothing else. -/
theorem has_of_check (h : r.check = some f) : f.has c = true ↔
    ¬ r.HasName ∧ Cause.emptyTarget.countsAs c = true ∨
    ¬ r.HasMode ∧ Cause.invalidConfig.countsAs c = true := by
  obtain ⟨_, rfl⟩ := Failure.join?_eq_some_iff.1 h
  simp only [Failure.has_joined_iff, mem_problems_iff]
  constructor
  · rintro ⟨f, ⟨hname, rfl⟩ | ⟨hmode, rfl⟩, hf⟩
    · exact .inl ⟨hname, by rwa [Failure.has] at hf⟩
    · exact .inr ⟨hmode, by rwa [Failure.has, Failure.has] at hf⟩
  · rintro (⟨hname, hc⟩ | ⟨hmode, hc⟩)
    · exact ⟨_, .inl ⟨hname, rfl⟩, by rwa [Failure.has]⟩
    · exact ⟨_, .inr ⟨hmode, rfl⟩, by rwa [Failure.has, Failure.has]⟩

end Request

namespace Search

variable {tree other : Tree} {id root : Text} {r : Request} {f : Failure}

/-! ### The root -/

/-- A directory stands at the root. -/
def HasRoot (tree : Tree) (root : Text) : Prop :=
  ∃ entry, tree.stat root = .ok entry ∧ entry.kind = .directory

theorem rootProblem_eq_none_iff : rootProblem tree root = none ↔ HasRoot tree root := by
  rw [rootProblem, HasRoot]
  cases tree.stat root <;> simp

theorem exists_because_of_rootProblem (h : rootProblem tree root = some f) :
    ∃ details, f = .because .rootNotFound details := by
  rw [rootProblem] at h
  split at h
  · exact ⟨_, (Option.some.inj h).symm⟩
  · split_ifs at h
    exact ⟨_, (Option.some.inj h).symm⟩

/-! ### What a failure tells -/

/-- What the failure of a search tells of its request. The request is checked
    before the root, so a bad mode is told whatever stands there. -/
structure Refusal (r : Request) (f : Failure) : Prop where
  nameless : ¬ r.HasName → outcome (some f) = .emptyTarget ∧
    (exitCode (some f)).number = 21 ∧ f.has .userInput = true
  modeless : r.HasName → ¬ r.HasMode → outcome (some f) = .failed ∧
    (exitCode (some f)).number = 10 ∧ f.has .userInput = false
  rootless : r.HasName → r.HasMode → outcome (some f) = .rootNotFound ∧
    (exitCode (some f)).number = 20 ∧ f.has .userInput = true

theorem Refusal.of_check (h : r.check = some f) : Refusal r f := by
  have hroot : f.has .rootNotFound = false := by
    rw [← Bool.not_eq_true, Request.has_of_check h]
    simp [Cause.countsAs]
  refine ⟨fun hname => ?_, fun hname hmode => ?_, fun hname hmode => ?_⟩
  · have hempty : f.has .emptyTarget = true :=
      (Request.has_of_check h).2 (.inl ⟨hname, rfl⟩)
    have hinput : f.has .userInput = true := (Request.has_of_check h).2 (.inl ⟨hname, rfl⟩)
    simp [outcome, exitCode, hroot, hempty, hinput, ExitCode.number]
  · have hempty : f.has .emptyTarget = false := by
      rw [← Bool.not_eq_true, Request.has_of_check h]
      simp [hname, Cause.countsAs]
    have hconfig : f.has .invalidConfig = true :=
      (Request.has_of_check h).2 (.inr ⟨hmode, rfl⟩)
    have hinput : f.has .userInput = false := by
      rw [← Bool.not_eq_true, Request.has_of_check h]
      simp [hname, Cause.countsAs]
    simp [outcome, exitCode, hroot, hempty, hconfig, hinput, ExitCode.number]
  · rw [Request.check_eq_none_iff.2 ⟨hname, hmode⟩] at h
    exact absurd h (by simp)

theorem Refusal.of_rootProblem (hcheck : r.check = none)
    (h : rootProblem tree r.root = some f) : Refusal r f := by
  obtain ⟨hname, hmode⟩ := Request.check_eq_none_iff.1 hcheck
  obtain ⟨details, rfl⟩ := exists_because_of_rootProblem h
  refine ⟨fun hnot => absurd hname hnot, fun _ hnot => absurd hmode hnot, fun _ _ => ?_⟩
  simp [outcome, exitCode, Cause.countsAs, ExitCode.number]

theorem Refusal.of_problem (h : problem tree r = some f) : Refusal r f := by
  rw [problem, Option.or_eq_some_iff] at h
  rcases h with hcheck | ⟨hcheck, hroot⟩
  · exact .of_check hcheck
  · exact .of_rootProblem hcheck hroot

theorem problem_eq_none_iff :
    problem tree r = none ↔ r.HasName ∧ r.HasMode ∧ HasRoot tree r.root := by
  rw [problem, Option.or_eq_none_iff, Request.check_eq_none_iff, rootProblem_eq_none_iff,
    and_assoc]

/-! ### What a search logs -/

/-- The search with everything that it does, in that order, and with what it logs
    also when it fails. A walk that fails would leave a log. -/
def course (tree : Tree) (id : Text) (steps : Nat) (r : Request) : Option Course :=
  match r.check with
  | some f => some ⟨[], .error f⟩
  | none =>
    match rootProblem tree r.root with
    | some f => some ⟨[], .error f⟩
    | none => explore tree id steps (carriedOut r)

/-- An answer as the end of a search: a failure comes before anything is
    logged. -/
def Course.ofAnswer : Except Failure Report → Course
  | .error f => ⟨[], .error f⟩
  | .ok report => ⟨report.log, .ok report.result⟩

/-- Below a root that has been looked at, a search does not fail, so its answer tells
    what it has logged. -/
theorem explore_eq_ofAnswer (h : rootProblem tree r.root = none) (steps : Nat) :
    explore tree id steps r =
      ((explore tree id steps r).map Course.answer).map Course.ofAnswer := by
  rw [explore]
  dsimp only
  rw [walk_eq h]
  cases Walk.events tree (IgnoreSet.load tree r.ignoreFile r.ignore).1 steps r.root <;> rfl

/-- Nothing is logged by a search that fails: when the walk checks the root, that
    has been checked. -/
theorem course_eq (steps : Nat) :
    course tree id steps r = (search tree id steps r).map Course.ofAnswer := by
  rw [course, search]
  cases r.check with
  | some f => rfl
  | none =>
    cases hroot : rootProblem tree r.root with
    | some f => rfl
    | none =>
      have hbelow : rootProblem tree (carriedOut r).root = none := hroot
      exact explore_eq_ofAnswer hbelow steps

/-! ### When a search fails -/

/-- A tree that is as another one, but for failures to list and to read. -/
structure Failing (tree other : Tree) : Prop where
  stat : ∀ p, other.stat p = tree.stat p
  list : ∀ p entries, other.list p = .ok entries → tree.list p = .ok entries
  read : ∀ p content, other.read p = .ok content → tree.read p = .ok content

/-- Where less is listed, a walk ends if it ended before. -/
theorem Failing.finite (h : Failing tree other) {dir : Text} (hf : tree.Finite dir) :
    other.Finite dir :=
  Subrelation.accessible (fun ⟨entries, hl, he⟩ => ⟨entries, h.list _ entries hl, he⟩) hf

theorem Failing.refl (tree : Tree) : Failing tree tree :=
  ⟨fun _ => rfl, fun _ _ h => h, fun _ _ h => h⟩

/-- Nothing that is listed or read makes a search fail. -/
theorem Failing.exists_answers_ok (h : Failing tree other) (hf : tree.Finite r.root)
    (hp : problem tree r = none) (id : Text) : ∃ report, Answers other id r (.ok report) := by
  have hp' : problem other r = none := (problem_congr (h.stat r.root)).trans hp
  obtain ⟨report, hreport, _⟩ := Search.exists_answers_ok (h.finite hf) hp' id
  exact ⟨report, hreport⟩

/-- A search fails with what keeps it from starting. -/
theorem answers_error_iff (hf : tree.Finite r.root) :
    Answers tree id r (.error f) ↔ problem tree r = some f := by
  constructor
  · intro h
    cases hp : problem tree r with
    | some g => rw [Except.error.inj (h.unique (answers_error hp id))]
    | none =>
      obtain ⟨report, hreport⟩ := (Failing.refl tree).exists_answers_ok hf hp id
      exact absurd (h.unique hreport) (by simp)
  · exact fun h => answers_error h id

/-- A search fails if, and only if, its target has no name, its mode is none of
    the modes, or no directory stands at its root. Then it has no result and logs
    nothing, and it fails alike in every tree in which the same stands at the root,
    whatever is listed or read there. The failure tells what the search looks at
    first: the name, then the mode, then the root. A search that succeeds goes on
    to succeed when less can be listed or read. -/
theorem fails_iff_bad_input (hf : tree.Finite r.root) (id : Text) :
    (∀ steps, course tree id steps r = (search tree id steps r).map Course.ofAnswer) ∧
    ((∃ f, Answers tree id r (.error f)) ↔
      ¬ r.HasName ∨ ¬ r.HasMode ∨ ¬ HasRoot tree r.root) ∧
    (∀ f, Answers tree id r (.error f) → Refusal r f ∧
      ∀ other : Tree, other.stat r.root = tree.stat r.root → ∀ name steps,
        course other name steps r = some ⟨[], .error f⟩) ∧
    (r.HasName ∧ r.HasMode ∧ HasRoot tree r.root → ∀ other, Failing tree other → ∀ name,
      ∃ report, Answers other name r (.ok report)) := by
  refine ⟨course_eq, ?_, fun f h => ?_, fun h other hfailing name => ?_⟩
  · rw [← not_and_or, ← not_and_or, ← problem_eq_none_iff, ← ne_eq, Option.ne_none_iff_exists']
    exact exists_congr fun f => answers_error_iff hf
  · rw [answers_error_iff hf] at h
    refine ⟨.of_problem h, fun other hstat name steps => ?_⟩
    rw [course_eq, search_of_problem ((problem_congr hstat).trans h)]
    rfl
  · exact hfailing.exists_answers_ok hf (problem_eq_none_iff.2 h) name

/-- A search without a name and in a mode that there is not. -/
def badRequest : Request := { target := { name := text " " }, root := text "p", mode := ⟨text "x"⟩ }

/-- The small tree, when nothing in it can be listed or read. -/
def closedTree : Tree where
  stat := Tree.sample.stat
  list p := .error (.plain p)
  read p := .error (.plain p)

theorem fails_iff_bad_input_sample :
    (∃ f, Answers Tree.sample [] badRequest (.error f) ∧ outcome (some f) = .emptyTarget ∧
      (exitCode (some f)).number = 21 ∧
      course closedTree [] 0 badRequest = some ⟨[], .error f⟩) ∧
    ∃ report, Answers closedTree [] { sampleRequest with ignoreFile := text "ignored" }
      (.ok report) := by
  have hname : ¬ badRequest.HasName := fun h => h (by decide)
  have hfinite : Tree.sample.Finite badRequest.root := Tree.finite_sample
  obtain ⟨_, hfails, hfailure, _⟩ := fails_iff_bad_input hfinite []
  obtain ⟨f, hf⟩ := hfails.2 (.inl hname)
  obtain ⟨hrefusal, hcourse⟩ := hfailure f hf
  obtain ⟨houtcome, hnumber, _⟩ := hrefusal.nameless hname
  refine ⟨⟨f, hf, houtcome, hnumber, hcourse closedTree rfl [] 0⟩, ?_⟩
  have hclosed : Failing Tree.sample closedTree :=
    ⟨fun _ => rfl, fun _ _ h => absurd h (by simp [closedTree]),
      fun _ _ h => absurd h (by simp [closedTree])⟩
  have hfinite' : Tree.sample.Finite
    ({ sampleRequest with ignoreFile := text "ignored" } : Request).root := Tree.finite_sample
  refine (fails_iff_bad_input hfinite' []).2.2.2 ⟨?_, ?_, ?_⟩ closedTree hclosed []
  · exact fun h => absurd h (by decide)
  · exact List.mem_cons_self
  · exact ⟨_, rfl, rfl⟩

end Search

end ImportFinder
