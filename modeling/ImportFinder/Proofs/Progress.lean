import ImportFinder.Progress
import ImportFinder.Terminal.Look
import Mathlib.Data.List.Basic

/-!
# What work behind a spinner comes to

The user and the work do not wait for each other: the user may quit before the work
has ended, and more may happen after either of them, before the program stops. So
nothing may be read off the way in which it came to stop. What counts is whether
the program was told of the end of the work:

* only the end of the work changes the status of the spinner (`status_update`), and
  when the spinner has been told of it nothing that happens makes a difference
  (`run_of_settled`), so the order of events does not matter;
* `run_faithful`: at any time of a run, what is shown and what the program comes to
  are those of the work if its end was told, and of unfinished work otherwise;
* `History.exists_eq_ok`: when the program comes to no failure, the result of the work
  is there.

A spinner that is told of a failure without a reason has nothing to show. Work that
fails has a reason, so this does not happen as long as nobody but the work tells of
its end (`Told`). Nothing of this hangs on the wheel of the spinner, which may turn as
it likes.
-/

namespace ImportFinder.Progress

variable {wheel : Wheel} {s : Spinner wheel} {w : Work} {e : Event wheel}
  {events : List (Event wheel)}

/-- The status of a spinner that was told of the end of the work. -/
def settled (w : Work) : Spinner.Status := .ofResult (w.mapError some)

@[simp]
theorem isDone_settled (w : Work) : (settled w).isDone = true := by
  cases w <;> rfl

theorem isSuccess_settled_iff : (settled w).isSuccess = true ↔ ∃ summary, w = .ok summary := by
  cases w <;> simp [settled, Except.mapError, Spinner.Status.ofResult, Spinner.Status.isSuccess]

/-! ### One event -/

/-- Only the end of the work changes the status. -/
theorem status_update (h : ∀ result, e ≠ .spinner (.ended result)) :
    (update s e).1.status = s.status := by
  match e with
  | .key _ => rfl
  | .spinner (.ended result) => exact absurd rfl (h result)
  | .spinner .other => rfl
  | .spinner (.tick t) =>
    change (s.update (.tick t)).1.status = s.status
    rw [Spinner.update]
    split_ifs <;> rfl

theorem status_update_ended (s : Spinner wheel) (w : Work) :
    (update s (ended w)).1.status = settled w := rfl

/-- When the spinner has been told of the end of the work, no event changes anything:
    it turns no more, and being told once more makes no difference. -/
theorem update_of_settled (hs : s.status = settled w)
    (h : ∀ result, e = .spinner (.ended result) → result = w.mapError some) :
    (update s e).1 = s := by
  match e with
  | .key _ => rfl
  | .spinner (.ended result) =>
    change { s with status := .ofResult result } = s
    rw [h result rfl]
    change { s with status := settled w } = s
    rw [← hs]
  | .spinner .other => rfl
  | .spinner (.tick t) =>
    change (s.update (.tick t)).1 = s
    rw [Spinner.update, hs, isDone_settled, if_pos rfl]

/-- The program is asked to quit by a key for that and by the end of the work, whatever
    state it is in. -/
theorem update_eq_quit_iff : (update s e).2 = .quit ↔
    (∃ k, e = .key k ∧ k.isQuit = true) ∨ ∃ result, e = .spinner (.ended result) := by
  match e with
  | .key k => cases hk : k.isQuit <;> simp [update, hk]
  | .spinner (.ended result) => simp [update]
  | .spinner .other => simp [update, Spinner.update]
  | .spinner (.tick t) =>
    -- A tick asks for the next one at most.
    have hnot : (update s (.spinner (.tick t))).2 ≠ .quit := by
      change (if (s.update (.tick t)).2 then Next.tick else Next.nothing) ≠ .quit
      split_ifs <;> decide
    simpa using hnot

/-! ### A run -/

theorem run_append (s : Spinner wheel) (before after : List (Event wheel)) :
    run s (before ++ after) = run (run s before) after := List.foldl_append

/-- As long as nobody tells of the end of the work, the status stays as it is. -/
theorem status_run (h : ∀ result, Event.spinner (.ended result) ∉ events) :
    (run s events).status = s.status := by
  induction events generalizing s with
  | nil => rfl
  | cons e events ih =>
    have he : ∀ result, e ≠ .spinner (.ended result) := fun result he =>
      h result (he ▸ List.mem_cons_self)
    exact (ih fun result hmem => h result (List.mem_cons_of_mem _ hmem)).trans (status_update he)

theorem run_of_settled (hs : s.status = settled w) (h : Told w events) : run s events = s := by
  induction events with
  | nil => rfl
  | cons e events ih =>
    have he : (update s e).1 = s := update_of_settled hs fun result he =>
      h result (he ▸ List.mem_cons_self)
    change run (update s e).1 events = s
    rw [he]
    exact ih fun result hmem => h result (List.mem_cons_of_mem _ hmem)

/-- Once the end of the work was told, the spinner shows it, whatever happened before
    and since. -/
theorem status_run_of_mem (h : Told w events) (hmem : ended w ∈ events) :
    (run s events).status = settled w := by
  obtain ⟨before, after, rfl⟩ := List.append_of_mem hmem
  have hafter : Told w after := fun result hresult =>
    h result (List.mem_append_right _ (List.mem_cons_of_mem _ hresult))
  rw [run_append]
  change (run (update (run s before) (ended w)).1 after).status = settled w
  rw [run_of_settled (status_update_ended _ w) hafter, status_update_ended]

theorem status_run_of_not_mem (h : Told w events) (hmem : ended w ∉ events) :
    (run s events).status = s.status := by
  refine status_run fun result hresult => hmem ?_
  rw [ended, ← h result hresult]
  exact hresult

/-! ### What it comes to -/

theorem isSome_view (hs : s.status = .running ∨ s.status = settled w) (look : Spinner.Look) :
    (view look s).isSome = true := by
  rw [view, Option.isSome_map, Spinner.view]
  rcases hs with hs | hs
  · rw [hs]
    rfl
  · rw [hs]
    cases w <;> rfl

theorem result_of_running (hs : s.status = .running) :
    result s = some (.cause .interrupted) := by
  rw [result, hs]
  rfl

theorem result_of_settled (hs : s.status = settled w) : result s = failure? w := by
  rw [result, hs]
  cases w <;> rfl

namespace History

variable {h : History wheel w} {message : Text} {f : Failure}

/-- What the program came to is what the terminal says, or the failure of the work, or an
    interruption. -/
theorem failure?_eq_some (hsome : h.failure? message = some f) :
    h.problem = some f ∨ w = .error f ∨ f = .cause .interrupted := by
  rw [failure?, Option.or_eq_some_iff] at hsome
  rcases hsome with hproblem | ⟨-, hresult⟩
  · exact .inl hproblem
  · by_cases hmem : ended w ∈ h.events
    · rw [result_of_settled (status_run_of_mem h.told hmem)] at hresult
      cases w with
      | ok summary => exact absurd hresult (by simp [Progress.failure?])
      | error g => exact .inr (.inl (congrArg _ (Option.some.inj hresult)))
    · rw [result_of_running (status_run_of_not_mem h.told hmem)] at hresult
      exact .inr (.inr (Option.some.inj hresult).symm)

/-- When the program came to no failure, the work has ended well, so its result is
    there. -/
theorem exists_eq_ok (hnone : h.failure? message = none) : ∃ summary, w = .ok summary := by
  rw [failure?, Option.or_eq_none_iff] at hnone
  by_cases hmem : ended w ∈ h.events
  · rw [result_of_settled (status_run_of_mem h.told hmem)] at hnone
    cases w with
    | ok summary => exact ⟨summary, rfl⟩
    | error g => exact absurd hnone.2 (by simp [Progress.failure?])
  · rw [result_of_running (status_run_of_not_mem h.told hmem)] at hnone
    exact absurd hnone.2 (by simp)

end History

/-- A state of the program tells the truth about work that comes to `w`, after some
    events. -/
structure Faithful (w : Work) (events : List (Event wheel)) (s : Spinner wheel) : Prop where
  /-- The spinner is done when the end of the work was told, and not before. -/
  isDone_iff : s.status.isDone = true ↔ ended w ∈ events
  /-- It reports success if the work that has ended did so without a failure. -/
  isSuccess_iff : s.status.isSuccess = true ↔ ended w ∈ events ∧ ∃ summary, w = .ok summary
  /-- There is something to show, whatever it looks like. -/
  shows : ∀ look, (view look s).isSome = true
  /-- When the end of the work was told, nothing that happens makes a difference. -/
  stays : ended w ∈ events → ∀ more, Told w more → run s more = s
  /-- The program is asked to quit by the keys for that and by the end of the work. -/
  quits_iff : ∀ e, (update s e).2 = .quit ↔
    (∃ k, e = .key k ∧ k.isQuit = true) ∨ ∃ result, e = .spinner (.ended result)
  /-- Unfinished work is an interruption. -/
  unfinished : ended w ∉ events → result s = some (.cause .interrupted)
  /-- Finished work comes to its own failure, if it failed. -/
  finished : ended w ∈ events → result s = failure? w
  /-- Nothing has failed exactly if the work has ended well. -/
  result_eq_none_iff : result s = none ↔ ended w ∈ events ∧ ∃ summary, w = .ok summary
  /-- An interruption means that the work has not ended, unless that is what the work
      itself says of its failure. -/
  result_eq_interrupted_iff : result s = some (.cause .interrupted) ↔
    ended w ∉ events ∨ w = .error (.cause .interrupted)

theorem faithful_of_settled (hmem : ended w ∈ events) (hs : s.status = settled w) :
    Faithful w events s := by
  have hresult := result_of_settled hs
  exact {
    isDone_iff := by simp [hs, hmem]
    isSuccess_iff := by rw [hs, isSuccess_settled_iff, and_iff_right hmem]
    shows := isSome_view (.inr hs)
    stays := fun _ _ hmore => run_of_settled hs hmore
    quits_iff := fun _ => update_eq_quit_iff
    unfinished := fun hnot => absurd hmem hnot
    finished := fun _ => hresult
    result_eq_none_iff := by
      rw [hresult, and_iff_right hmem]
      cases w <;> simp [failure?]
    result_eq_interrupted_iff := by
      rw [hresult, or_iff_right (not_not_intro hmem)]
      cases w <;> simp [failure?] }

theorem faithful_of_running (hmem : ended w ∉ events) (hs : s.status = .running) :
    Faithful w events s := by
  have hresult := result_of_running hs
  exact {
    isDone_iff := by
      rw [hs]
      exact iff_of_false Bool.false_ne_true hmem
    isSuccess_iff := by
      rw [hs]
      exact iff_of_false Bool.false_ne_true fun h => hmem h.1
    shows := isSome_view (w := w) (.inl hs)
    stays := fun hin => absurd hin hmem
    quits_iff := fun _ => update_eq_quit_iff
    unfinished := fun _ => hresult
    finished := fun hin => absurd hin hmem
    result_eq_none_iff := by
      rw [hresult]
      exact iff_of_false (Option.some_ne_none _) fun h => hmem h.1
    result_eq_interrupted_iff := iff_of_true hresult (.inl hmem) }

/-- Whatever happens while some work is running, and in whatever order, the program
    tells the truth about the work. -/
theorem run_faithful (message : Text) (h : Told w events) :
    Faithful w events (run (start message).1 events) := by
  by_cases hmem : ended w ∈ events
  · exact faithful_of_settled hmem (status_run_of_mem h hmem)
  · exact faithful_of_running hmem (status_run_of_not_mem h hmem)

/-- A user who quits, before the work has failed. -/
def quitEarly : List (Event (.dots true)) :=
  [.spinner (.tick true), .key ⟨text "q", false⟩, ended (.error (.plain (text "no such root"))),
    .spinner (.tick true), .spinner .other]

/-- The failure of the work is what the program comes to. -/
theorem run_faithful_sample : Told (.error (.plain (text "no such root"))) quitEarly ∧
    result (run (start (text "Searching")).1 quitEarly) = some (.plain (text "no such root")) := by
  have htold : Told (.error (.plain (text "no such root"))) quitEarly := by
    intro result hmem
    simpa [quitEarly, ended] using hmem
  exact ⟨htold, (run_faithful (text "Searching") htold).finished (by simp [quitEarly])⟩

end ImportFinder.Progress
