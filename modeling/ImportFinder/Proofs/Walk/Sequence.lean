import ImportFinder.Proofs.Walk.Reach

/-!
# The sequence of a walk

A walk passes the entries of a directory in the order in which they are listed,
each with all that lies below it before the next one. So of two files the one
comes first whose name, where their paths part, is listed first
(`pairwise_files`). Together with the set of the files that are reached, this
determines their sequence.
-/

namespace ImportFinder.Walk

variable {tree : Tree} {ignore : IgnoreSet} {dir path : Text}

theorem mem_files_iff_event {es : List Event} :
    path ∈ (stats es).files ↔ ∃ name, .file path name ∈ es := by
  constructor
  · intro h
    obtain ⟨⟨_, name⟩, hfile, rfl⟩ := List.mem_map.1 h
    obtain ⟨ev, hev, heq⟩ := List.mem_filterMap.1 hfile
    cases ev with
    | file path name =>
      obtain ⟨rfl, rfl⟩ := Prod.mk.inj (Option.some.inj heq)
      exact ⟨_, hev⟩
    | _ => exact absurd heq (by simp [Event.file?])
  · rintro ⟨name, hev⟩
    exact List.mem_map.2 ⟨(path, name), List.mem_filterMap.2 ⟨_, hev, rfl⟩, rfl⟩

theorem files_descend_of_ok (hf : tree.Finite dir) {entries : List Entry}
    (hl : tree.list dir = .ok entries) : (stats (descend tree ignore dir)).files =
      entries.flatMap fun e => (stats (pass tree ignore dir e)).files := by
  have hlisted : ∀ es, (stats (.listed dir :: es)).files = (stats es).files := fun _ => rfl
  rw [descend_of_ok hf hl, hlisted, stats, List.filterMap_flatMap, List.map_flatMap]
  rfl

theorem files_descend_of_error {why : Failure} (hl : tree.list dir = .error why) :
    (stats (descend tree ignore dir)).files = [] := by
  rw [descend_of_error hl]
  rfl

/-- What holds of the files below a directory holds of those that are reached by
    passing it. -/
theorem pairwise_files_pass {R : Text → Text → Prop} {e : Entry}
    (hsub : e.kind = .directory →
      (stats (descend tree ignore (Path.join dir e.name))).files.Pairwise R) :
    (stats (pass tree ignore dir e)).files.Pairwise R := by
  cases hi : ignore.ignores e.name with
  | true =>
    rw [pass_ignored hi]
    exact List.Pairwise.nil
  | false =>
    cases hk : e.kind with
    | directory =>
      rw [pass_directory hi hk]
      exact hsub hk
    | file =>
      rw [pass_file hi hk]
      exact List.pairwise_singleton R _
    | link =>
      rw [pass_link hi hk]
      exact List.Pairwise.nil

/-- If the entries of each directory are listed in some order, the files that are
    reached come in that order, where their paths part. -/
theorem pairwise_files (hn : tree.WellNamed) {within : Text → Prop}
    (hdown : ∀ dir sub, within dir → tree.Below sub dir → within sub)
    {earlier : List Text → Text → Text → Prop}
    (hsorted : ∀ dir entries, within dir → tree.list dir = .ok entries →
      (entries.map (·.name)).Pairwise (earlier (Path.components dir)))
    (hf : tree.Finite dir) (hdir : within dir) :
    (stats (descend tree ignore dir)).files.Pairwise fun p q => ∃ cs a b,
      cs ++ [a] <+: Path.components p ∧ cs ++ [b] <+: Path.components q ∧ earlier cs a b := by
  induction hf with
  | intro dir hsub ih =>
    cases hl : tree.list dir with
    | error why =>
      rw [files_descend_of_error hl]
      exact List.Pairwise.nil
    | ok entries =>
      have hcomp := (hn dir entries hl).2
      have hbelow : ∀ e ∈ entries, e.kind = .directory → tree.Below (Path.join dir e.name) dir :=
        fun e he hk => ⟨entries, hl, e, he, hk, rfl⟩
      -- What is reached by passing an entry has its name next among the components.
      have hfront : ∀ e ∈ entries, ∀ p ∈ (stats (pass tree ignore dir e)).files,
          Path.components dir ++ [e.name] <+: Path.components p := by
        intro e he p hp
        obtain ⟨name, hev⟩ := mem_files_iff_event.1 hp
        exact prefix_components_pass (hcomp e he)
          (fun hk => prefix_components hn (hsub _ (hbelow e he hk))) _ hev
      rw [files_descend_of_ok ⟨dir, hsub⟩ hl, List.pairwise_flatMap]
      refine ⟨fun e he => pairwise_files_pass fun hk => ?_, ?_⟩
      · exact ih _ (hbelow e he hk) (hdown dir _ hdir (hbelow e he hk))
      · refine (List.pairwise_map.1 (hsorted dir entries hdir hl)).imp_of_mem ?_
        intro d e hd he hde p hp q hq
        exact ⟨_, _, _, hfront d hd p hp, hfront e he q hq, hde⟩

end ImportFinder.Walk
