import ImportFinder.Walk
import Mathlib

/-!
# The walk as a descent

A directory has a finite unfolding when no chain of directories, each listed by
the one before it, goes on forever from it (`Tree.Finite`); as listings are
finite, only finitely many entries are then met. On such a directory the walk is
a recursion (`Walk.descend`): the directory is listed, and each of its entries
is passed in turn, a directory by descending into it.

The stack of the walk holds what this recursion has still to do. One step
replaces the topmost frame by what is left of it, and by the frame of the
directory that is entered (`Walk.next`). So after finitely many steps a frame is
gone and exactly the events of its pending entries have happened
(`Walk.Passes`), whatever lies below it on the stack. With enough steps, the walk
ends with the events of the descent (`exists_events_eq`).
-/

namespace ImportFinder

namespace Tree

/-- The directory `sub` is listed as an entry of the directory `dir`. -/
def Below (tree : Tree) (sub dir : Text) : Prop :=
  ∃ entries, tree.list dir = .ok entries ∧
    ∃ e ∈ entries, e.kind = .directory ∧ sub = Path.join dir e.name

/-- The unfolding of a directory is finite: no chain of directories, each listed
    by the one before it, goes on forever. -/
abbrev Finite (tree : Tree) (dir : Text) : Prop := Acc tree.Below dir

theorem finite_of_error {tree : Tree} {dir : Text} {why : Failure}
    (hl : tree.list dir = .error why) : tree.Finite dir :=
  ⟨dir, fun _ ⟨_, h, _⟩ => by simp [hl] at h⟩

theorem finite_of_ok {tree : Tree} {dir : Text} {entries : List Entry}
    (hl : tree.list dir = .ok entries)
    (h : ∀ e ∈ entries, e.kind = .directory → tree.Finite (Path.join dir e.name)) :
    tree.Finite dir := by
  refine ⟨dir, fun sub ⟨entries', hl', e, he, hk, hsub⟩ => ?_⟩
  obtain rfl : entries = entries' := Except.ok.inj (hl.symm.trans hl')
  exact hsub ▸ h e he hk

theorem Finite.down {tree : Tree} {dir : Text} (hf : tree.Finite dir) {entries : List Entry}
    (hl : tree.list dir = .ok entries) {e : Entry} (he : e ∈ entries) (hk : e.kind = .directory) :
    tree.Finite (Path.join dir e.name) :=
  hf.inv ⟨entries, hl, e, he, hk, rfl⟩

end Tree

namespace Walk

variable {tree : Tree} {ignore : IgnoreSet} {dir : Text}

/-! ### The descent -/

/-- What passing an entry of a directory adds, if `below` is what descending
    into a directory adds. -/
def passWith (ignore : IgnoreSet) (below : Text → List Event) (dir : Text) (e : Entry) :
    List Event :=
  if ignore.ignores e.name then [.ignored (Path.join dir e.name)]
  else match e.kind with
    | .directory => below (Path.join dir e.name)
    | .file => [.file (Path.join dir e.name) e.name]
    | .link => []

/-- What a directory and its entries add. -/
def descendWith (tree : Tree) (ignore : IgnoreSet) (below : Text → List Event) (dir : Text) :
    List Event :=
  match tree.list dir with
  | .error why => [.unreadable dir why]
  | .ok entries => .listed dir :: entries.flatMap (passWith ignore below dir)

open Classical in
/-- The events of the recursive walk from a directory with a finite unfolding. -/
noncomputable def descend (tree : Tree) (ignore : IgnoreSet) (dir : Text) : List Event :=
  if hf : tree.Finite dir then
    WellFounded.fixF (fun dir below => descendWith tree ignore
      (fun sub => if hs : tree.Below sub dir then below sub hs else []) dir) dir hf
  else []

/-- What passing an entry of a directory adds. -/
noncomputable def pass (tree : Tree) (ignore : IgnoreSet) : Text → Entry → List Event :=
  passWith ignore (descend tree ignore)

theorem descend_of_error {why : Failure} (hl : tree.list dir = .error why) :
    descend tree ignore dir = [.unreadable dir why] := by
  rw [descend, dif_pos (Tree.finite_of_error hl), WellFounded.fixF_eq, descendWith, hl]

theorem descend_of_ok (hf : tree.Finite dir) {entries : List Entry}
    (hl : tree.list dir = .ok entries) :
    descend tree ignore dir = .listed dir :: entries.flatMap (pass tree ignore dir) := by
  rw [descend, dif_pos hf, WellFounded.fixF_eq, descendWith, hl]
  refine congrArg _ (List.flatMap_congr fun e he => ?_)
  unfold pass passWith
  split_ifs with hi
  · rfl
  · cases hk : e.kind with
    | directory =>
      -- What is listed lies below the directory, so the recursion is not cut off.
      have hs : tree.Below (Path.join dir e.name) dir := ⟨entries, hl, e, he, hk, rfl⟩
      dsimp only
      rw [dif_pos hs, descend, dif_pos (hf.inv hs)]
    | file => rfl
    | link => rfl

theorem pass_ignored {e : Entry} (hi : ignore.ignores e.name = true) :
    pass tree ignore dir e = [.ignored (Path.join dir e.name)] := by
  rw [pass, passWith, if_pos hi]

theorem pass_directory {e : Entry} (hi : ignore.ignores e.name = false)
    (hk : e.kind = .directory) :
    pass tree ignore dir e = descend tree ignore (Path.join dir e.name) := by
  rw [pass, passWith, if_neg (by simp [hi]), hk]

theorem pass_file {e : Entry} (hi : ignore.ignores e.name = false) (hk : e.kind = .file) :
    pass tree ignore dir e = [.file (Path.join dir e.name) e.name] := by
  rw [pass, passWith, if_neg (by simp [hi]), hk]

theorem pass_link {e : Entry} (hi : ignore.ignores e.name = false) (hk : e.kind = .link) :
    pass tree ignore dir e = [] := by
  rw [pass, passWith, if_neg (by simp [hi]), hk]

/-- Passing an entry in two trees adds related events, if descending into it
    does where it is a directory that is not left out. -/
theorem pass_rel {first second : Tree} {R : List Event → List Event → Prop}
    (hrefl : ∀ es, R es es) {e : Entry} (hsub : ignore.ignores e.name = false →
      e.kind = .directory → R (descend first ignore (Path.join dir e.name))
        (descend second ignore (Path.join dir e.name))) :
    R (pass first ignore dir e) (pass second ignore dir e) := by
  cases hi : ignore.ignores e.name with
  | true =>
    rw [pass_ignored hi, pass_ignored hi]
    exact hrefl _
  | false =>
    cases hk : e.kind with
    | directory =>
      rw [pass_directory hi hk, pass_directory hi hk]
      exact hsub hi hk
    | file =>
      rw [pass_file hi hk, pass_file hi hk]
      exact hrefl _
    | link =>
      rw [pass_link hi hk, pass_link hi hk]
      exact hrefl _

/-! ### The stack -/

/-- One step of the walk on the topmost frame: the frames that take its place,
    and what happens. -/
def next (tree : Tree) (ignore : IgnoreSet) : Frame → List Frame × List Event
  | ⟨_, []⟩ => ([], [])
  | ⟨dir, e :: pending⟩ =>
    if ignore.ignores e.name then ([⟨dir, pending⟩], [.ignored (Path.join dir e.name)])
    else match e.kind with
      | .directory =>
        ((enter tree (Path.join dir e.name)).2 ++ [⟨dir, pending⟩],
          [(enter tree (Path.join dir e.name)).1])
      | .file => ([⟨dir, pending⟩], [.file (Path.join dir e.name) e.name])
      | .link => ([⟨dir, pending⟩], [])

theorem run_succ (steps : Nat) (f : Frame) (below : List Frame) (past : List Event) :
    run tree ignore (steps + 1) (f :: below) past =
      run tree ignore steps ((next tree ignore f).1 ++ below)
        ((next tree ignore f).2.reverse ++ past) := by
  obtain ⟨dir, pending⟩ := f
  cases pending with
  | nil => simp [run, next]
  | cons e pending =>
    rw [run, next]
    dsimp only
    split_ifs with hi
    · rfl
    · cases e.kind <;> simp

theorem events_eq_run (steps : Nat) : events tree ignore steps dir =
    run tree ignore steps (enter tree dir).2 [(enter tree dir).1] := rfl

/-- More steps than a walk needs do not change its events. -/
theorem run_mono {steps more : Nat} (hle : steps ≤ more) {stack : List Frame}
    {past es : List Event} (h : run tree ignore steps stack past = some es) :
    run tree ignore more stack past = some es := by
  induction steps generalizing more stack past with
  | zero =>
    cases stack with
    | nil => simpa [run] using h
    | cons f below => simp [run] at h
  | succ steps ih =>
    cases stack with
    | nil => simpa [run] using h
    | cons f below =>
      obtain ⟨more, rfl⟩ := Nat.exists_eq_add_of_lt hle
      rw [run_succ] at h ⊢
      exact ih (Nat.le_add_right _ _) h

/-- Passing the frames takes finitely many steps and adds the events `es`,
    whatever lies below them on the stack. -/
def Passes (tree : Tree) (ignore : IgnoreSet) (frames : List Frame) (es : List Event) : Prop :=
  ∃ n, ∀ steps below past, run tree ignore (n + steps) (frames ++ below) past =
    run tree ignore steps below (es.reverse ++ past)

theorem Passes.nil : Passes tree ignore [] [] := ⟨0, fun steps below past => by simp⟩

theorem Passes.append {fs gs : List Frame} {es ds : List Event} (hf : Passes tree ignore fs es)
    (hg : Passes tree ignore gs ds) : Passes tree ignore (fs ++ gs) (es ++ ds) := by
  obtain ⟨n, hn⟩ := hf
  obtain ⟨m, hm⟩ := hg
  refine ⟨n + m, fun steps below past => ?_⟩
  rw [Nat.add_assoc, List.append_assoc, hn, hm, List.reverse_append, List.append_assoc]

/-- A frame is passed by taking one step and passing what that leaves. -/
theorem Passes.step {f : Frame} {frames : List Frame} {es ds : List Event}
    (hnext : next tree ignore f = (frames, es)) (h : Passes tree ignore frames ds) :
    Passes tree ignore [f] (es ++ ds) := by
  obtain ⟨n, hn⟩ := h
  refine ⟨n + 1, fun steps below past => ?_⟩
  rw [Nat.add_right_comm, List.singleton_append, run_succ, hnext, hn, List.reverse_append,
    List.append_assoc]

/-! ### The stack carries out the descent -/

/-- A frame is passed with the events of its pending entries, if the directories
    among them are passed with those of the descent. -/
theorem passes_frame {pending : List Entry}
    (hsub : ∀ e ∈ pending, e.kind = .directory → ∃ es,
      Passes tree ignore (enter tree (Path.join dir e.name)).2 es ∧
        descend tree ignore (Path.join dir e.name) = (enter tree (Path.join dir e.name)).1 :: es) :
    Passes tree ignore [⟨dir, pending⟩] (pending.flatMap (pass tree ignore dir)) := by
  induction pending with
  | nil => exact Passes.step rfl Passes.nil
  | cons e pending ih =>
    have hrest := ih fun d hd => hsub d (List.mem_cons_of_mem _ hd)
    rw [List.flatMap_cons]
    cases hi : ignore.ignores e.name with
    | true =>
      rw [pass_ignored hi]
      exact Passes.step (by simp [next, hi]) hrest
    | false =>
      cases hk : e.kind with
      | directory =>
        -- The frames of the directory come first, then what is left of this one.
        obtain ⟨es, hes, hd⟩ := hsub e List.mem_cons_self hk
        have hnext : next tree ignore ⟨dir, e :: pending⟩ =
            ((enter tree (Path.join dir e.name)).2 ++ [⟨dir, pending⟩],
              [(enter tree (Path.join dir e.name)).1]) := by
          simp [next, hi, hk]
        rw [pass_directory hi hk, hd, List.cons_append]
        exact Passes.step hnext (hes.append hrest)
      | file =>
        rw [pass_file hi hk]
        exact Passes.step (by simp [next, hi, hk]) hrest
      | link =>
        rw [pass_link hi hk]
        exact Passes.step (by simp [next, hi, hk]) hrest

/-- Entering a directory with a finite unfolding puts on the stack what the
    descent has still to do. -/
theorem passes_enter (ignore : IgnoreSet) (hf : tree.Finite dir) : ∃ es,
    Passes tree ignore (enter tree dir).2 es ∧
      descend tree ignore dir = (enter tree dir).1 :: es := by
  -- By induction on the unfolding: all that is listed can be passed.
  induction hf with
  | intro dir hsub ih =>
    have hf : tree.Finite dir := ⟨dir, hsub⟩
    cases hl : tree.list dir with
    | error why => exact ⟨[], by simpa [enter, hl] using Passes.nil, by
        rw [descend_of_error hl, enter, hl]⟩
    | ok entries =>
      refine ⟨entries.flatMap (pass tree ignore dir), ?_, by rw [descend_of_ok hf hl, enter, hl]⟩
      rw [enter, hl]
      exact passes_frame fun e he hk => ih _ ⟨entries, hl, e, he, hk, rfl⟩

/-- With enough steps, the walk from a directory with a finite unfolding ends
    with the events of the descent. -/
theorem exists_events_eq (ignore : IgnoreSet) (hf : tree.Finite dir) :
    ∃ n, ∀ steps, n ≤ steps → events tree ignore steps dir = some (descend tree ignore dir) := by
  obtain ⟨es, ⟨n, hn⟩, hd⟩ := passes_enter ignore hf
  refine ⟨n, fun steps hle => ?_⟩
  obtain ⟨k, rfl⟩ := Nat.exists_eq_add_of_le hle
  -- Nothing lies below the frames of the root.
  have hrun := hn k [] [(enter tree dir).1]
  rw [List.append_nil] at hrun
  rw [events_eq_run, hrun, hd]
  cases k <;> simp [run]

/-- An event happens on the walk from a directory. -/
def Happens (tree : Tree) (ignore : IgnoreSet) (dir : Text) (ev : Event) : Prop :=
  ∃ steps es, events tree ignore steps dir = some es ∧ ev ∈ es

theorem happens_iff (hf : tree.Finite dir) {ev : Event} :
    Happens tree ignore dir ev ↔ ev ∈ descend tree ignore dir := by
  obtain ⟨n, hn⟩ := exists_events_eq ignore hf
  constructor
  · rintro ⟨steps, es, hes, hmem⟩
    -- More steps lead to the same events, and enough of them to those of the descent.
    have hmore : events tree ignore (n + steps) dir = some es :=
      run_mono (Nat.le_add_left steps n) hes
    rw [hn _ (Nat.le_add_right n steps)] at hmore
    exact Option.some.inj hmore ▸ hmem
  · intro hmem
    exact ⟨n, _, hn n le_rfl, hmem⟩

end Walk

/-! ### A small tree -/

/-- A tree with a file, two directories, one of which cannot be listed, and a
    link below its root `p`. The file in the other directory can be read. -/
def Tree.sample : Tree where
  stat _ := .ok { name := text "p", kind := .directory }
  list dir :=
    if dir = text "p" then
      .ok [{ name := text "a.js", kind := .file }, { name := text "lib", kind := .directory },
        { name := text "locked", kind := .directory }, { name := text "x.js", kind := .link }]
    else if dir = text "p/lib" then .ok [{ name := text "b.js", kind := .file }]
    else .error (.plain (text "denied"))
  read path :=
    if path = text "p/lib/b.js" then .ok (text "// header\nimport u from './u'")
    else .error (.plain (text "denied"))

theorem Tree.finite_sample : Tree.sample.Finite (text "p") := by
  refine finite_of_ok rfl ?_
  simp only [List.forall_mem_cons, List.not_mem_nil, false_imp_iff, implies_true, reduceCtorEq,
    true_and, and_true, true_imp_iff]
  exact ⟨finite_of_ok rfl (by simp), finite_of_error rfl⟩

end ImportFinder
