import ImportFinder.Proofs.Walk.Reach

/-!
# A walk past a fault

What becomes of a walk when one more directory cannot be listed? Up to there and
from there on the descent is as before: other directories are listed as before
(`descend_congr`), and no other way leads to what lies below this one. So
exactly the events from within the directory are gone, and one event takes their
place, which tells that the directory could not be listed (`exists_cut`).

What lies below a directory is told in two ways: by the names on the way to it
(`Tree.Through`), and by the components of its path. If names are proper, they
agree for what a walk comes to (`through_of_mem`, `Through.components`).
-/

namespace ImportFinder

namespace Tree

/-- The tree in which the file at a path cannot be read. -/
def failRead (tree : Tree) (path : Text) (why : Failure) : Tree :=
  { tree with read := Function.update tree.read path (.error why) }

/-- The tree in which the directory at a path cannot be listed. -/
def failList (tree : Tree) (dir : Text) (why : Failure) : Tree :=
  { tree with list := Function.update tree.list dir (.error why) }

/-- On the way on which names lead from the root down to a path, a directory is
    passed. -/
def Through (tree : Tree) (root dir path : Text) : Prop :=
  ∃ above below e, tree.Reaches root (above ++ below) e ∧ above.foldl Path.join root = dir ∧
    path = (above ++ below ++ [e.name]).foldl Path.join root

variable {tree : Tree} {root dir sub path : Text} {why : Failure}

theorem read_failRead_self : (tree.failRead path why).read path = .error why :=
  Function.update_self ..

theorem read_failRead_of_ne {other : Text} (h : other ≠ path) :
    (tree.failRead path why).read other = tree.read other :=
  Function.update_of_ne h ..

theorem list_failList_self : (tree.failList dir why).list dir = .error why :=
  Function.update_self ..

theorem list_failList_of_ne (h : sub ≠ dir) : (tree.failList dir why).list sub = tree.list sub :=
  Function.update_of_ne h ..

/-- With one more fault nothing new can be listed. -/
theorem Finite.failList (hf : tree.Finite root) : (tree.failList dir why).Finite root := by
  refine Subrelation.accessible (fun {a b} hb => ?_) hf
  obtain ⟨entries, hl, e, he, hk, ha⟩ := hb
  by_cases hdir : b = dir
  · subst hdir
    rw [list_failList_self] at hl
    exact absurd hl (by simp)
  · exact ⟨entries, list_failList_of_ne hdir ▸ hl, e, he, hk, ha⟩

/-- What lies below a directory has more components. -/
theorem Through.components (hn : tree.WellNamed) (h : tree.Through root dir path) :
    Path.components dir <+: Path.components path ∧ Path.components dir ≠ Path.components path := by
  obtain ⟨above, below, e, hr, rfl, rfl⟩ := h
  have hnames := hr.isComponent hn
  rw [Path.components_foldl_join hnames, Path.components_foldl_join fun n hmem =>
    hnames n (List.mem_append_left _ (List.mem_append_left _ hmem))]
  rw [List.append_assoc, ← List.append_assoc]
  refine ⟨List.prefix_append _ _, fun h => ?_⟩
  have hlength := congrArg List.length h
  simp at hlength

end Tree

namespace Walk

variable {tree : Tree} {ignore : IgnoreSet} {dir sub : Text}

/-- Two trees are walked alike if they list alike every directory to which the
    walk comes. -/
theorem descend_congr {first second : Tree} (hf : first.Finite dir) (hf' : second.Finite dir)
    (h : ∀ ev ∈ descend first ignore dir, ∀ sub, ev.directory? = some sub →
      second.list sub = first.list sub) :
    descend second ignore dir = descend first ignore dir := by
  induction hf with
  | intro dir hdown ih =>
    have hf : first.Finite dir := ⟨dir, hdown⟩
    cases hl : first.list dir with
    | error why =>
      have hsame := h (.unreadable dir why) (by simp [descend_of_error hl]) dir rfl
      rw [descend_of_error hl, descend_of_error (hsame.trans hl)]
    | ok entries =>
      have hsame := h (.listed dir) (by simp [descend_of_ok hf hl]) dir rfl
      have hl' := hsame.trans hl
      rw [descend_of_ok hf hl, descend_of_ok hf' hl']
      refine congrArg _ (List.flatMap_congr fun e he => ?_)
      refine pass_rel (fun _ => rfl) fun hi hk => ?_
      refine ih _ ⟨entries, hl, e, he, hk, rfl⟩ (hf'.down hl' he hk) fun ev hev => h ev ?_
      rw [descend_of_ok hf hl]
      exact List.mem_cons_of_mem _ (List.mem_flatMap.2 ⟨e, he, by rwa [pass_directory hi hk]⟩)

/-- What happens below a directory to which the walk comes happens through it. -/
theorem through_of_mem {root : Text} (hf : tree.Finite root)
    (hdir : (enter tree dir).1 ∈ descend tree ignore root) (hf' : tree.Finite dir) {ev : Event}
    (hev : ev ∈ descend tree ignore dir) (hne : ev.directory? ≠ some dir) :
    tree.Through root dir ev.path := by
  obtain ⟨above, rfl, hway⟩ := exists_way hf hdir (directory?_enter tree dir)
  obtain ⟨below, e, hr, hpath⟩ := (exists_reaches_of_mem hf' hev).resolve_left hne
  refine ⟨above, below, e, hway below e hr, rfl, ?_⟩
  rw [hpath, List.append_assoc, ← List.foldl_append]

/-! ### Cutting out a directory -/

/-- A directory to which the walk comes from another one lies below one entry of
    that, and at the other entries nothing happens below it. -/
theorem exists_branch (hn : tree.WellNamed) (hf : tree.Finite dir) (hne : sub ≠ dir)
    (h : (enter tree sub).1 ∈ descend tree ignore dir) : ∃ before e after,
      tree.list dir = .ok (before ++ e :: after) ∧ ignore.ignores e.name = false ∧
      e.kind = .directory ∧ (enter tree sub).1 ∈ descend tree ignore (Path.join dir e.name) ∧
      Path.components dir ++ [e.name] <+: Path.components sub ∧
      ∀ d ∈ before ++ after, ∀ ev ∈ pass tree ignore dir d,
        ¬ Path.components sub <+: Path.components ev.path := by
  obtain ⟨entries, hl, e, he, hi, hk, h⟩ :=
    (mem_descend_of_directory? hf h (directory?_enter tree sub)).resolve_left fun h => hne h.1
  obtain ⟨hnames, hcomp⟩ := hn dir entries hl
  have hsub : Path.components dir ++ [e.name] <+: Path.components sub := by
    have hbelow := prefix_components hn (hf.down hl he hk) _ h
    rwa [Path.components_join (hcomp e he),
      Event.path_of_directory? (directory?_enter tree sub)] at hbelow
  obtain ⟨before, after, rfl⟩ := List.append_of_mem he
  refine ⟨before, e, after, hl, hi, hk, h, hsub, fun d hd ev hev hbelow => ?_⟩
  have hmem : d ∈ before ++ e :: after := by
    rw [List.mem_append] at hd
    exact List.mem_append.2 (hd.imp_right (List.mem_cons_of_mem _))
  -- What happens at `d` has its name where the directory has that of `e`.
  have hname : e.name = d.name := Path.name_eq_below (hsub.trans hbelow)
    (prefix_components_pass (hcomp d hmem)
      (fun hk => prefix_components hn (hf.down hl hmem hk)) ev hev)
  rw [List.map_append, List.map_cons, List.nodup_middle, List.nodup_cons,
    ← List.map_append] at hnames
  exact hnames.1 (List.mem_map.2 ⟨d, hd, hname.symm⟩)

/-- An entry at which nothing happens below a directory is passed as before when
    the directory can no longer be listed. -/
theorem pass_failList (hf : tree.Finite dir) {entries : List Entry}
    (hl : tree.list dir = .ok entries) {e : Entry} (he : e ∈ entries)
    (h : ∀ ev ∈ pass tree ignore dir e, ¬ Path.components sub <+: Path.components ev.path)
    (why : Failure) : pass (tree.failList sub why) ignore dir e = pass tree ignore dir e := by
  refine pass_rel (fun _ => rfl) fun hi hk => ?_
  have hf := hf.down hl he hk
  refine descend_congr hf hf.failList fun ev hev d hd => Tree.list_failList_of_ne ?_
  rintro rfl
  refine h ev ?_ (Event.path_of_directory? hd ▸ List.prefix_rfl)
  rwa [pass_directory hi hk]

/-- If a directory to which the walk comes can no longer be listed, one event
    takes the place of all those from within it, and the others stay. -/
theorem exists_cut (hn : tree.WellNamed) (hf : tree.Finite dir)
    (h : (enter tree sub).1 ∈ descend tree ignore dir) (why : Failure) : ∃ front back,
      descend tree ignore dir = front ++ (descend tree ignore sub ++ back) ∧
      descend (tree.failList sub why) ignore dir = front ++ .unreadable sub why :: back ∧
      ∀ ev ∈ front ++ back, ¬ Path.components sub <+: Path.components ev.path := by
  induction hf with
  | intro dir hdown ih =>
    have hf : tree.Finite dir := ⟨dir, hdown⟩
    by_cases hdir : sub = dir
    · subst hdir
      refine ⟨[], [], by simp, ?_, by simp⟩
      rw [descend_of_error Tree.list_failList_self, List.nil_append]
    obtain ⟨before, e, after, hl, hi, hk, h, hsub, hother⟩ := exists_branch hn hf hdir h
    have he : e ∈ before ++ e :: after := by simp
    obtain ⟨front, back, hold, hnew, hout⟩ := ih _ ⟨_, hl, e, he, hk, rfl⟩ h
    have hl' : (tree.failList sub why).list dir = .ok (before ++ e :: after) :=
      (Tree.list_failList_of_ne (Ne.symm hdir)).trans hl
    -- The entries before and after the one above the directory are passed as before.
    have hbefore : before.flatMap (pass (tree.failList sub why) ignore dir) =
        before.flatMap (pass tree ignore dir) := List.flatMap_congr fun d hd =>
      pass_failList hf hl (by simp [hd]) (hother d (by simp [hd])) why
    have hafter : after.flatMap (pass (tree.failList sub why) ignore dir) =
        after.flatMap (pass tree ignore dir) := List.flatMap_congr fun d hd =>
      pass_failList hf hl (by simp [hd]) (hother d (by simp [hd])) why
    refine ⟨.listed dir :: before.flatMap (pass tree ignore dir) ++ front,
      back ++ after.flatMap (pass tree ignore dir), ?_, ?_, fun ev hev => ?_⟩
    · rw [descend_of_ok hf hl, List.flatMap_append, List.flatMap_cons, pass_directory hi hk, hold]
      simp
    · rw [descend_of_ok hf.failList hl', List.flatMap_append, List.flatMap_cons,
        pass_directory hi hk, hnew, hbefore, hafter]
      simp
    · simp only [List.cons_append, List.append_assoc, List.mem_cons, List.mem_append,
        List.mem_flatMap] at hev
      rcases hev with rfl | ⟨d, hd, hev⟩ | hev | hev | ⟨d, hd, hev⟩
      · -- The directory on the way has fewer components.
        intro hbelow
        have hlength := (hsub.trans hbelow).length_le
        simp [Event.path] at hlength
      · exact hother d (by simp [hd]) ev hev
      · exact hout ev (by simp [hev])
      · exact hout ev (by simp [hev])
      · exact hother d (by simp [hd]) ev hev

/-- Behind the event that lists a directory, all that happens on the descent into
    it happens below it. -/
theorem through_of_mem_inner (hn : tree.WellNamed) {root : Text} (hf : tree.Finite root)
    (h : .listed dir ∈ descend tree ignore root) {entries : List Entry}
    (hl : tree.list dir = .ok entries) :
    ∀ ev ∈ entries.flatMap (pass tree ignore dir), tree.Through root dir ev.path := by
  intro ev hev
  have hf' := finite_of_mem hf h rfl
  have hnodup : ((descend tree ignore dir).map Event.path).Nodup := nodup_paths hn hf'
  rw [descend_of_ok hf' hl, List.map_cons, List.nodup_cons] at hnodup
  have hmem : ev ∈ descend tree ignore dir := by
    rw [descend_of_ok hf' hl]
    exact List.mem_cons_of_mem _ hev
  refine through_of_mem hf (eq_enter_of_mem hf h rfl ▸ h) hf' hmem fun hself => ?_
  exact hnodup.1 (List.mem_map.2 ⟨ev, hev, Event.path_of_directory? hself⟩)

/-- If a directory that the walk lists can no longer be listed, the events that
    happened through it are gone, and another event takes the place of the one
    that listed it. -/
theorem exists_cut_through (hn : tree.WellNamed) {root : Text} (hf : tree.Finite root)
    (h : .listed dir ∈ descend tree ignore root) (why : Failure) : ∃ front back,
      descend tree ignore root = front ++ (descend tree ignore dir ++ back) ∧
      descend (tree.failList dir why) ignore root = front ++ .unreadable dir why :: back ∧
      ∀ keep : Text → Bool, (∀ path, keep path = true ↔ ¬ tree.Through root dir path) →
        (descend tree ignore root).filter (fun ev => keep ev.path) =
          front ++ .listed dir :: back := by
  obtain ⟨entries, hl⟩ := list_of_listed_mem hf h
  obtain ⟨front, back, hold, hnew, hout⟩ := exists_cut hn hf (eq_enter_of_mem hf h rfl ▸ h) why
  refine ⟨front, back, hold, hnew, fun keep hkeep => ?_⟩
  have hkept : ∀ ev ∈ front ++ back, keep ev.path = true := fun ev hev =>
    (hkeep ev.path).2 fun hthrough => hout ev hev (hthrough.components hn).1
  have hself : keep (Event.listed dir).path = true :=
    (hkeep dir).2 fun hthrough => (hthrough.components hn).2 rfl
  have hinner : ∀ ev ∈ entries.flatMap (pass tree ignore dir), ¬ keep ev.path = true :=
    fun ev hev hk => (hkeep ev.path).1 hk (through_of_mem_inner hn hf h hl ev hev)
  rw [hold, descend_of_ok (finite_of_mem hf h rfl) hl, List.filter_append, List.filter_append,
    List.filter_cons, if_pos hself, List.filter_eq_nil_iff.2 hinner,
    List.filter_eq_self.2 fun ev hev => hkept ev (List.mem_append_left _ hev),
    List.filter_eq_self.2 fun ev hev => hkept ev (List.mem_append_right _ hev)]
  rfl

end Walk

end ImportFinder
