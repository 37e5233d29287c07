import ImportFinder.Proofs.Search.Answer

/-!
# The order of listings

A directory lists its entries in whatever order they are stored. Two trees that
differ in nothing else (`Tree.Reordered`) are walked on different ways from the
first directory on, and their stacks never look alike. But at each directory the
two descents pass the same entries. So their events are the same up to their
order (`Walk.perm_descend`), and so is all that is read off them: the lists of a
result are permuted, and its totals do not change (`Search.perm_tally`).
-/

namespace ImportFinder

namespace Tree

/-- Two trees that differ in nothing but the order in which their directories
    list the entries. -/
structure Reordered (first second : Tree) : Prop where
  stat : ∀ path, second.stat path = first.stat path
  read : ∀ path, second.read path = first.read path
  list : ∀ dir, (∃ why, first.list dir = .error why ∧ second.list dir = .error why) ∨
    ∃ as bs, first.list dir = .ok as ∧ second.list dir = .ok bs ∧ as.Perm bs

variable {first second : Tree} {dir : Text}

theorem Reordered.below (h : first.Reordered second) {sub : Text} (hb : second.Below sub dir) :
    first.Below sub dir := by
  obtain ⟨entries, hl, e, he, hk, hsub⟩ := hb
  obtain ⟨why, _, hwhy⟩ | ⟨as, bs, has, hbs, hperm⟩ := h.list dir
  · rw [hwhy] at hl
    exact absurd hl (by simp)
  · obtain rfl : entries = bs := Except.ok.inj (hl.symm.trans hbs)
    exact ⟨as, has, e, hperm.mem_iff.2 he, hk, hsub⟩

/-- The unfolding of a directory does not depend on the order of listings. -/
theorem Reordered.finite (h : first.Reordered second) (hf : first.Finite dir) :
    second.Finite dir :=
  Subrelation.accessible h.below hf

end Tree

namespace Walk

variable {first second : Tree} {ignore : IgnoreSet} {dir : Text}

/-- The events of a walk are the same up to their order, in whatever order
    directories list their entries. -/
theorem perm_descend (h : first.Reordered second) (ignore : IgnoreSet) (hf : first.Finite dir) :
    (descend first ignore dir).Perm (descend second ignore dir) := by
  induction hf with
  | intro dir hsub ih =>
    have hf : first.Finite dir := ⟨dir, hsub⟩
    obtain ⟨why, h₁, h₂⟩ | ⟨as, bs, h₁, h₂, hperm⟩ := h.list dir
    · rw [descend_of_error h₁, descend_of_error h₂]
    · -- The entries are permuted, and so are the events within each of them.
      rw [descend_of_ok hf h₁, descend_of_ok (h.finite hf) h₂]
      refine (hperm.flatMap fun e he => ?_).cons _
      exact pass_rel List.Perm.refl fun _ hk => ih _ ⟨as, h₁, e, he, hk, rfl⟩

end Walk

namespace Search

/-- Two results tell the same, if in another order: their lists are permuted,
    and their totals are equal. -/
structure Alike (a b : Result) : Prop where
  visited : a.visited.Perm b.visited
  files : a.files.Perm b.files
  skipped : a.skipped.Perm b.skipped
  filesVisited : a.filesVisited = b.filesVisited
  dirsVisited : a.dirsVisited = b.dirsVisited
  matchCount : a.matchCount = b.matchCount
  filesWithMatches : a.filesWithMatches = b.filesWithMatches
  unusedCount : a.unusedCount = b.unusedCount

variable {first second : Tree} {r : Request}

/-- The total over the same records does not depend on their order. -/
theorem sum_map_eq {fs gs : List FileRecord} (h : fs.Perm gs) (count : FileRecord → Nat) :
    (((fs.map count).sum : Nat) : Int) = ((gs.map count).sum : Nat) :=
  congrArg Int.ofNat (h.map count).sum_eq

/-- Events in another order give the same result up to the order of its lists. -/
theorem perm_tally {tree : Tree} {ds es : List Walk.Event} (h : ds.Perm es) (id₁ id₂ : Text) :
    Alike (tally tree id₁ r ds) (tally tree id₂ r es) := by
  have hfile := h.filterMap Walk.Event.file?
  have hpaths : (Walk.candidates r.extensions ds).Perm (Walk.candidates r.extensions es) :=
    (hfile.filter _).map _
  have hfound := hpaths.filterMap (record? tree r)
  exact {
    visited := hfile.map _
    files := hfound
    skipped := (h.filterMap _).append (hpaths.filterMap _)
    filesVisited := congrArg Int.ofNat (hfile.map _).length_eq
    dirsVisited := congrArg Int.ofNat (h.countP_eq _)
    matchCount := sum_map_eq hfound _
    filesWithMatches := congrArg Int.ofNat hfound.length_eq
    unusedCount := sum_map_eq hfound _ }

/-- Two searches in trees that differ in nothing but the order of listings fail
    alike, or both succeed and find the same up to the order. -/
theorem alike_of_reordered (h : first.Reordered second) (hf : first.Finite r.root)
    (id₁ id₂ : Text) :
    (∃ f, Answers first id₁ r (.error f) ∧ Answers second id₂ r (.error f)) ∨
    ∃ a b, Answers first id₁ r (.ok a) ∧ Answers second id₂ r (.ok b) ∧
      Alike a.result b.result := by
  have hproblem := problem_congr (h.stat r.root)
  refine (answers_alike r r hf (h.finite hf) hproblem.symm id₁ id₂).imp_right ?_
  rintro ⟨a, b, ha, hb, ha', hb'⟩
  refine ⟨a, b, ha, hb, ?_⟩
  rw [ha', hb', ignoreSet_congr (h.read r.ignoreFile), tally_congr h.read]
  exact perm_tally (Walk.perm_descend h _ hf) id₁ id₂

end Search

/-! ### The small tree backwards -/

/-- The small tree with its listings in the opposite order. -/
def Tree.backwards : Tree :=
  { Tree.sample with list := fun dir => (Tree.sample.list dir).map List.reverse }

theorem Tree.reordered_backwards : Tree.sample.Reordered Tree.backwards where
  stat _ := rfl
  read _ := rfl
  list dir := by
    cases hl : Tree.sample.list dir with
    | error why => exact .inl ⟨why, rfl, by simp [backwards, hl, Except.map]⟩
    | ok entries =>
      exact .inr ⟨entries, entries.reverse, rfl, by simp [backwards, hl, Except.map],
        entries.reverse_perm.symm⟩

/-- Backwards, the file in the directory is reached before the other one. -/
theorem Search.alike_of_reordered_sample : ∃ a b,
    Answers Tree.sample [] sampleRequest (.ok a) ∧
      Answers Tree.backwards [] sampleRequest (.ok b) ∧ Alike a.result b.result ∧
        b.result.visited = [text "p/lib/b.js", text "p/a.js"] := by
  obtain ⟨f, hf, _⟩ | ⟨a, b, ha, hb, halike⟩ :=
    alike_of_reordered (r := sampleRequest) Tree.reordered_backwards Tree.finite_sample [] []
  · exact absurd (hf.unique (answers_of_search (rfl : search _ _ 9 _ = some (.ok _)))) (by simp)
  · refine ⟨a, b, ha, hb, halike, ?_⟩
    obtain rfl := Except.ok.inj
      (hb.unique (answers_of_search (rfl : search _ _ 9 _ = some (.ok _))))
    decide +kernel

end ImportFinder
