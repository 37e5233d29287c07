import ImportFinder.Proofs.Path.Components
import ImportFinder.Proofs.Walk.Recursion

/-!
# What a walk reaches

From a directory, a chain of names leads down to an entry when each directory on
the way is listed and lists the next one (`Tree.Reaches`). The walk comes to
exactly the files to which chains without ignored names lead
(`file_mem_descend_iff`): nothing is lost, and links lead nowhere.

Nothing is met twice either, if names are proper (`Tree.WellNamed`): no directory
lists a name twice, and each name is one component of a path. For then the
components of a path are the names by which it was reached, and two events of a
walk have different paths (`nodup_paths`).
-/

namespace ImportFinder

namespace Tree

/-- From a directory, the names `dirs` lead down to a listing with the entry `e`:
    each directory on the way is listed, and lists the next one. -/
def Reaches (tree : Tree) : Text → List Text → Entry → Prop
  | dir, [], e => ∃ entries, tree.list dir = .ok entries ∧ e ∈ entries
  | dir, n :: dirs, e =>
    (∃ entries, tree.list dir = .ok entries ∧ ∃ d ∈ entries, d.name = n ∧ d.kind = .directory) ∧
      tree.Reaches (Path.join dir n) dirs e

/-- No directory lists a name twice, and each name is one component of a path. -/
def WellNamed (tree : Tree) : Prop :=
  ∀ dir entries, tree.list dir = .ok entries →
    (entries.map (·.name)).Nodup ∧ ∀ e ∈ entries, Path.IsComponent e.name

variable {tree : Tree} {dir : Text} {dirs : List Text} {e : Entry}

/-- The names that lead to an entry, and its own, are proper ones. -/
theorem Reaches.isComponent (hn : tree.WellNamed) (h : tree.Reaches dir dirs e) :
    ∀ n ∈ dirs ++ [e.name], Path.IsComponent n := by
  induction dirs generalizing dir with
  | nil =>
    obtain ⟨entries, hl, he⟩ := h
    intro n hmem
    rw [List.nil_append, List.mem_singleton] at hmem
    exact hmem ▸ (hn dir entries hl).2 e he
  | cons m dirs ih =>
    obtain ⟨⟨entries, hl, d, hd, rfl, _⟩, hrest⟩ := h
    intro n hmem
    rcases List.mem_cons.1 hmem with rfl | hmem
    · exact (hn dir entries hl).2 d hd
    · exact ih hrest n hmem

/-- The path to which one comes by names one after the other is the one to which
    they lead at once. -/
theorem Reaches.foldl_join (hn : tree.WellNamed) (h : tree.Reaches dir dirs e) :
    (dirs ++ [e.name]).foldl Path.join dir =
      Path.join dir (Text.joinWith [Text.slash] (dirs ++ [e.name])) :=
  Path.foldl_join (by simp) (h.isComponent hn) dir

/-- The last component of a path is the name of the entry that is reached. -/
theorem Reaches.base_foldl (hn : tree.WellNamed) (h : tree.Reaches dir dirs e) :
    Path.base ((dirs ++ [e.name]).foldl Path.join dir) = e.name := by
  rw [List.foldl_append]
  exact Path.base_join (h.isComponent hn e.name (by simp)) _

end Tree

namespace Walk

variable {tree : Tree} {ignore : IgnoreSet} {dir : Text}

/-- An event of passing an entry: it is left out, it is a directory from which
    the event comes, or it is the file that was reached. -/
theorem mem_pass_iff {e : Entry} {ev : Event} : ev ∈ pass tree ignore dir e ↔
    (ignore.ignores e.name = true ∧ ev = .ignored (Path.join dir e.name)) ∨
    (ignore.ignores e.name = false ∧
      ((e.kind = .directory ∧ ev ∈ descend tree ignore (Path.join dir e.name)) ∨
        (e.kind = .file ∧ ev = .file (Path.join dir e.name) e.name))) := by
  cases hi : ignore.ignores e.name with
  | true => simp [pass_ignored hi]
  | false =>
    cases hk : e.kind with
    | directory => simp [pass_directory hi hk]
    | file => simp [pass_file hi hk]
    | link => simp [pass_link hi hk]

/-! ### Files -/

/-- A file to which the walk comes is reached by names that are not ignored. -/
theorem reaches_of_file_mem (hf : tree.Finite dir) {path name : Text}
    (h : .file path name ∈ descend tree ignore dir) : ∃ dirs e, tree.Reaches dir dirs e ∧
      (∀ n ∈ dirs ++ [e.name], ignore.ignores n = false) ∧ e.kind = .file ∧ e.name = name ∧
      path = (dirs ++ [e.name]).foldl Path.join dir := by
  induction hf with
  | intro dir hsub ih =>
    cases hl : tree.list dir with
    | error why => simp [descend_of_error hl] at h
    | ok entries =>
      rw [descend_of_ok ⟨dir, hsub⟩ hl, List.mem_cons, List.mem_flatMap] at h
      rcases h with h | ⟨e, he, h⟩
      · simp at h
      rcases mem_pass_iff.1 h with ⟨_, h⟩ | ⟨hi, ⟨hk, h⟩ | ⟨hk, h⟩⟩
      · simp at h
      · -- The file lies below the directory `e`.
        obtain ⟨dirs, d, hr, his, hd⟩ := ih _ ⟨entries, hl, e, he, hk, rfl⟩ h
        refine ⟨e.name :: dirs, d, ⟨⟨entries, hl, e, he, rfl, hk⟩, hr⟩, ?_, hd⟩
        simpa [hi] using his
      · -- The file is the entry `e` itself.
        injection h with hp hname
        exact ⟨[], e, ⟨entries, hl, he⟩, by simpa using hi, hk, hname.symm, hp⟩

/-- The walk comes to every file to which names lead that are not ignored. -/
theorem file_mem_of_reaches (hf : tree.Finite dir) {dirs : List Text} {e : Entry}
    (hr : tree.Reaches dir dirs e) (hi : ∀ n ∈ dirs ++ [e.name], ignore.ignores n = false)
    (hk : e.kind = .file) :
    .file ((dirs ++ [e.name]).foldl Path.join dir) e.name ∈ descend tree ignore dir := by
  induction dirs generalizing dir with
  | nil =>
    obtain ⟨entries, hl, he⟩ := hr
    rw [descend_of_ok hf hl]
    refine List.mem_cons_of_mem _ (List.mem_flatMap.2 ⟨e, he, ?_⟩)
    exact mem_pass_iff.2 (.inr ⟨hi e.name (by simp), .inr ⟨hk, rfl⟩⟩)
  | cons n dirs ih =>
    obtain ⟨⟨entries, hl, d, hd, rfl, hkd⟩, hr⟩ := hr
    rw [descend_of_ok hf hl]
    refine List.mem_cons_of_mem _ (List.mem_flatMap.2 ⟨d, hd, ?_⟩)
    refine mem_pass_iff.2 (.inr ⟨hi d.name (by simp), .inl ⟨hkd, ?_⟩⟩)
    exact ih (hf.down hl hd hkd) hr fun n hn => hi n (List.mem_cons_of_mem _ hn)

/-- The walk comes to exactly the files to which names lead that are not
    ignored. -/
theorem file_mem_descend_iff (hf : tree.Finite dir) {path name : Text} :
    .file path name ∈ descend tree ignore dir ↔ ∃ dirs e, tree.Reaches dir dirs e ∧
      (∀ n ∈ dirs ++ [e.name], ignore.ignores n = false) ∧ e.kind = .file ∧ e.name = name ∧
      path = (dirs ++ [e.name]).foldl Path.join dir := by
  refine ⟨reaches_of_file_mem hf, ?_⟩
  rintro ⟨dirs, e, hr, hi, hk, rfl, rfl⟩
  exact file_mem_of_reaches hf hr hi hk

/-- The name of a file to which the walk comes is the last component of its
    path. -/
theorem base_of_file_mem (hn : tree.WellNamed) (hf : tree.Finite dir) {path name : Text}
    (h : .file path name ∈ descend tree ignore dir) : Path.base path = name := by
  obtain ⟨dirs, e, hr, _, _, rfl, rfl⟩ := (file_mem_descend_iff hf).1 h
  exact hr.base_foldl hn

/-! ### Directories -/

/-- The path at which an event happens. -/
def Event.path : Event → Text
  | .listed dir => dir
  | .unreadable dir _ => dir
  | .ignored path => path
  | .file path _ => path

theorem Event.path_of_directory? {ev : Event} {sub : Text} (h : ev.directory? = some sub) :
    ev.path = sub := by
  cases ev with
  | listed dir => exact Option.some.inj h
  | unreadable dir why => exact Option.some.inj h
  | ignored path => exact absurd h (by simp [Event.directory?])
  | file path name => exact absurd h (by simp [Event.directory?])

theorem directory?_enter (tree : Tree) (dir : Text) : (enter tree dir).1.directory? = some dir := by
  rw [enter]
  cases tree.list dir <;> rfl

/-- Where an event comes from: entering the directory, or passing an entry that
    it lists. -/
theorem mem_descend (hf : tree.Finite dir) {ev : Event} (h : ev ∈ descend tree ignore dir) :
    ev = (enter tree dir).1 ∨
      ∃ entries, tree.list dir = .ok entries ∧ ∃ e ∈ entries, ev ∈ pass tree ignore dir e := by
  cases hl : tree.list dir with
  | error why =>
    rw [descend_of_error hl, List.mem_singleton] at h
    exact .inl (by rw [enter, hl, h])
  | ok entries =>
    rw [descend_of_ok hf hl, List.mem_cons, List.mem_flatMap] at h
    exact h.imp (fun h => by rw [enter, hl, h]) fun h => ⟨entries, rfl, h⟩

/-- An event is that of the directory itself, or names lead from there to where
    it happens. -/
theorem exists_reaches_of_mem (hf : tree.Finite dir) {ev : Event}
    (h : ev ∈ descend tree ignore dir) : ev.directory? = some dir ∨
      ∃ dirs e, tree.Reaches dir dirs e ∧ ev.path = (dirs ++ [e.name]).foldl Path.join dir := by
  induction hf with
  | intro dir hdown ih =>
    rcases mem_descend ⟨dir, hdown⟩ h with rfl | ⟨entries, hl, e, he, h⟩
    · exact .inl (directory?_enter tree dir)
    have hr : tree.Reaches dir [] e := ⟨entries, hl, he⟩
    rcases mem_pass_iff.1 h with ⟨_, rfl⟩ | ⟨_, ⟨hk, h⟩ | ⟨_, rfl⟩⟩
    · exact .inr ⟨[], e, hr, rfl⟩
    · rcases ih _ ⟨entries, hl, e, he, hk, rfl⟩ h with hself | ⟨dirs, d, hr', hpath⟩
      · exact .inr ⟨[], e, hr, Event.path_of_directory? hself⟩
      · exact .inr ⟨e.name :: dirs, d, ⟨⟨entries, hl, e, he, rfl, hk⟩, hr'⟩, hpath⟩
    · exact .inr ⟨[], e, hr, rfl⟩

/-- A directory to which the walk comes is the one from which it starts, or lies
    below an entry that is not left out. -/
theorem mem_descend_of_directory? (hf : tree.Finite dir) {ev : Event}
    (h : ev ∈ descend tree ignore dir) {sub : Text} (hsub : ev.directory? = some sub) :
    (sub = dir ∧ ev = (enter tree dir).1) ∨ ∃ entries, tree.list dir = .ok entries ∧
      ∃ e ∈ entries, ignore.ignores e.name = false ∧ e.kind = .directory ∧
        ev ∈ descend tree ignore (Path.join dir e.name) := by
  rcases mem_descend hf h with rfl | ⟨entries, hl, e, he, h⟩
  · rw [directory?_enter] at hsub
    exact .inl ⟨(Option.some.inj hsub).symm, rfl⟩
  · rcases mem_pass_iff.1 h with ⟨_, rfl⟩ | ⟨hi, ⟨hk, h⟩ | ⟨_, rfl⟩⟩
    · exact absurd hsub (by simp [Event.directory?])
    · exact .inr ⟨entries, hl, e, he, hi, hk, h⟩
    · exact absurd hsub (by simp [Event.directory?])

/-- What is reached from a directory to which the walk comes is reached through
    it from the start. -/
theorem exists_way (hf : tree.Finite dir) {ev : Event} (h : ev ∈ descend tree ignore dir)
    {sub : Text} (hsub : ev.directory? = some sub) : ∃ above, above.foldl Path.join dir = sub ∧
      ∀ below e, tree.Reaches sub below e → tree.Reaches dir (above ++ below) e := by
  induction hf with
  | intro dir hdown ih =>
    rcases mem_descend_of_directory? ⟨dir, hdown⟩ h hsub with
      ⟨rfl, _⟩ | ⟨entries, hl, e, he, _, hk, h⟩
    · exact ⟨[], rfl, fun below e hr => hr⟩
    · -- The way goes down by `e` first.
      obtain ⟨above, habove, hway⟩ := ih _ ⟨entries, hl, e, he, hk, rfl⟩ h
      exact ⟨e.name :: above, habove, fun below d hr =>
        ⟨⟨entries, hl, e, he, rfl, hk⟩, hway below d hr⟩⟩

/-- A directory to which the walk comes has the event of entering it: it is
    listed if and only if it can be. -/
theorem eq_enter_of_mem (hf : tree.Finite dir) {ev : Event} (h : ev ∈ descend tree ignore dir)
    {sub : Text} (hsub : ev.directory? = some sub) : ev = (enter tree sub).1 := by
  induction hf with
  | intro dir hdown ih =>
    rcases mem_descend_of_directory? ⟨dir, hdown⟩ h hsub with
      ⟨rfl, hev⟩ | ⟨entries, hl, e, he, _, hk, h⟩
    · exact hev
    · exact ih _ ⟨entries, hl, e, he, hk, rfl⟩ h

theorem finite_of_mem (hf : tree.Finite dir) {ev : Event} (h : ev ∈ descend tree ignore dir)
    {sub : Text} (hsub : ev.directory? = some sub) : tree.Finite sub := by
  induction hf with
  | intro dir hdown ih =>
    rcases mem_descend_of_directory? ⟨dir, hdown⟩ h hsub with
      ⟨rfl, _⟩ | ⟨entries, hl, e, he, _, hk, h⟩
    · exact ⟨sub, hdown⟩
    · exact ih _ ⟨entries, hl, e, he, hk, rfl⟩ h

/-- A directory is listed if it can be. -/
theorem list_of_listed_mem (hf : tree.Finite dir) {sub : Text}
    (h : .listed sub ∈ descend tree ignore dir) : ∃ entries, tree.list sub = .ok entries := by
  have henter := eq_enter_of_mem hf h rfl
  rw [enter] at henter
  cases hl : tree.list sub with
  | error why => simp [hl] at henter
  | ok entries => exact ⟨entries, rfl⟩

/-- A directory is skipped for the reason for which it cannot be listed. -/
theorem list_of_unreadable_mem (hf : tree.Finite dir) {sub : Text} {why : Failure}
    (h : .unreadable sub why ∈ descend tree ignore dir) : tree.list sub = .error why := by
  have henter := eq_enter_of_mem hf h rfl
  rw [enter] at henter
  cases hl : tree.list sub with
  | error other =>
    rw [hl] at henter
    injection henter with _ hwhy
    rw [hwhy]
  | ok entries => simp [hl] at henter

/-! ### Paths -/

/-- The files that were reached stand in the order of the events. -/
theorem sublist_files_paths (es : List Event) :
    (stats es).files.Sublist (es.map Event.path) := by
  induction es with
  | nil => exact .slnil
  | cons ev es ih =>
    cases ev with
    | file path name => exact ih.cons_cons path
    | _ => exact ih.cons _

/-- Below a directory, events happen at paths with its components in front; an
    entry that is passed comes next among them. -/
theorem prefix_components_pass {e : Entry} (hc : Path.IsComponent e.name)
    (hsub : e.kind = .directory → ∀ ev ∈ descend tree ignore (Path.join dir e.name),
      Path.components (Path.join dir e.name) <+: Path.components ev.path) :
    ∀ ev ∈ pass tree ignore dir e,
      Path.components dir ++ [e.name] <+: Path.components ev.path := by
  intro ev hev
  rw [← Path.components_join hc]
  rcases mem_pass_iff.1 hev with ⟨_, rfl⟩ | ⟨_, ⟨hk, h⟩ | ⟨_, rfl⟩⟩
  · exact List.prefix_rfl
  · exact hsub hk ev h
  · exact List.prefix_rfl

theorem prefix_components (hn : tree.WellNamed) (hf : tree.Finite dir) :
    ∀ ev ∈ descend tree ignore dir, Path.components dir <+: Path.components ev.path := by
  induction hf with
  | intro dir hsub ih =>
    intro ev hev
    cases hl : tree.list dir with
    | error why =>
      rw [descend_of_error hl, List.mem_singleton] at hev
      exact hev ▸ List.prefix_rfl
    | ok entries =>
      rw [descend_of_ok ⟨dir, hsub⟩ hl, List.mem_cons, List.mem_flatMap] at hev
      rcases hev with rfl | ⟨e, he, hev⟩
      · exact List.prefix_rfl
      · refine (List.prefix_append _ [e.name]).trans ?_
        exact prefix_components_pass ((hn dir entries hl).2 e he)
          (fun hk => ih _ ⟨entries, hl, e, he, hk, rfl⟩) ev hev

theorem nodup_paths_pass {e : Entry} (hsub : e.kind = .directory →
    ((descend tree ignore (Path.join dir e.name)).map Event.path).Nodup) :
    ((pass tree ignore dir e).map Event.path).Nodup := by
  cases hi : ignore.ignores e.name with
  | true => simp [pass_ignored hi]
  | false =>
    cases hk : e.kind with
    | directory => simpa [pass_directory hi hk] using hsub hk
    | file => simp [pass_file hi hk]
    | link => simp [pass_link hi hk]

/-- No two events of a walk happen at the same path. -/
theorem nodup_paths (hn : tree.WellNamed) (hf : tree.Finite dir) :
    ((descend tree ignore dir).map Event.path).Nodup := by
  induction hf with
  | intro dir hsub ih =>
    cases hl : tree.list dir with
    | error why => simp [descend_of_error hl]
    | ok entries =>
      obtain ⟨hnames, hcomp⟩ := hn dir entries hl
      have hdown : ∀ e ∈ entries, e.kind = .directory → tree.Below (Path.join dir e.name) dir :=
        fun e he hk => ⟨entries, hl, e, he, hk, rfl⟩
      have hfront : ∀ e ∈ entries, ∀ ev ∈ pass tree ignore dir e,
          Path.components dir ++ [e.name] <+: Path.components ev.path := fun e he =>
        prefix_components_pass (hcomp e he) fun hk => prefix_components hn (hsub _ (hdown e he hk))
      rw [descend_of_ok ⟨dir, hsub⟩ hl, List.map_cons, List.nodup_cons, List.map_flatMap,
        List.nodup_flatMap]
      refine ⟨fun hmem => ?_, fun e he => nodup_paths_pass fun hk => ih _ (hdown e he hk), ?_⟩
      · -- What happens below the directory has more components.
        obtain ⟨e, he, hmem⟩ := List.mem_flatMap.1 hmem
        obtain ⟨ev, hev, hpath⟩ := List.mem_map.1 hmem
        have hle := (hpath ▸ hfront e he ev hev).length_le
        rw [List.length_append, List.length_singleton, Event.path] at hle
        omega
      · -- Entries differ in the component that follows those of the directory.
        refine (List.pairwise_map.1 hnames).imp_of_mem fun {d e} hd he hne => ?_
        rw [Function.onFun, List.disjoint_left]
        intro path hpath hpath'
        obtain ⟨ev, hev, rfl⟩ := List.mem_map.1 hpath
        obtain ⟨ev', hev', heq⟩ := List.mem_map.1 hpath'
        exact hne (Path.name_eq_below (hfront d hd ev hev) (heq ▸ hfront e he ev' hev'))

end Walk

theorem Tree.wellNamed_sample : Tree.sample.WellNamed := by
  intro dir entries hl
  dsimp only [Tree.sample] at hl
  split_ifs at hl
  all_goals
    obtain rfl := Except.ok.inj hl
    decide

end ImportFinder
