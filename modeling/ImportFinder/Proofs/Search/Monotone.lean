import ImportFinder.Proofs.Ignore
import ImportFinder.Proofs.Search.Answer

/-!
# More ignore entries

Two searches that only differ in the entries that they ignore take different
ways through the tree: one leaves out whole directories that the other enters.
As descents they are still easily compared, entry by entry. What is left out
only leaves a trace in the log. So up to that, the events of the search that
ignores more are some of those of the other one, in the same order
(`Walk.sublist_told_descend`), and so is everything that is read off them
(`Search.within_tally`).
-/

namespace ImportFinder

namespace Walk

/-- Whether an event leaves out an entry. -/
def Event.isIgnored : Event → Bool
  | .ignored _ => true
  | _ => false

/-- The events that a result tells of: all but those that leave out an entry. -/
def told (es : List Event) : List Event := es.filter (!·.isIgnored)

variable {tree : Tree} {small large : IgnoreSet} {dir : Text}

theorem told_listed (es : List Event) : told (.listed dir :: es) = .listed dir :: told es := rfl

theorem told_flatMap (entries : List Entry) (f : Entry → List Event) :
    told (entries.flatMap f) = entries.flatMap fun e => told (f e) :=
  List.filter_flatMap

/-- What is not read off ignored entries is read off what is told. -/
theorem filterMap_told {β : Type} {f : Event → Option β} (h : ∀ path, f (.ignored path) = none)
    (es : List Event) : (told es).filterMap f = es.filterMap f := by
  rw [told, List.filterMap_filter]
  refine List.filterMap_congr fun e _ => ?_
  cases e with
  | ignored path => exact (h path).symm
  | _ => rfl

/-- What a result tells of an entry is less with a larger ignore set, if it is
    for the directories. -/
theorem sublist_told_pass (h : ∀ name, small.ignores name = true → large.ignores name = true)
    {e : Entry} (hsub : e.kind = .directory →
      (told (descend tree large (Path.join dir e.name))).Sublist
        (told (descend tree small (Path.join dir e.name)))) :
    (told (pass tree large dir e)).Sublist (told (pass tree small dir e)) := by
  cases hlarge : large.ignores e.name with
  | true =>
    -- Whatever the smaller set makes of the entry, nothing is told of it here.
    rw [pass_ignored hlarge]
    exact List.nil_sublist _
  | false =>
    -- What the larger set lets through, the smaller one lets through.
    have hsmall : small.ignores e.name = false :=
      Bool.eq_false_iff.2 fun hi => by simp [h _ hi] at hlarge
    cases hk : e.kind with
    | directory =>
      rw [pass_directory hlarge hk, pass_directory hsmall hk]
      exact hsub hk
    | file => rw [pass_file hlarge hk, pass_file hsmall hk]
    | link => rw [pass_link hlarge hk, pass_link hsmall hk]

/-- What a result tells of a walk is less with a larger ignore set. -/
theorem sublist_told_descend (h : ∀ name, small.ignores name = true → large.ignores name = true)
    (hf : tree.Finite dir) :
    (told (descend tree large dir)).Sublist (told (descend tree small dir)) := by
  induction hf with
  | intro dir hsub ih =>
    have hf : tree.Finite dir := ⟨dir, hsub⟩
    cases hl : tree.list dir with
    | error why => rw [descend_of_error hl, descend_of_error hl]
    | ok entries =>
      rw [descend_of_ok hf hl, descend_of_ok hf hl, told_listed, told_listed, told_flatMap,
        told_flatMap]
      refine List.Sublist.cons_cons _ (List.Sublist.flatMap_right _ fun e he => ?_)
      exact sublist_told_pass h fun hk => ih _ ⟨entries, hl, e, he, hk, rfl⟩

end Walk

namespace Search

/-- A result is a part of another one: its lists are some of the other's, in the
    same order, and none of its totals is larger. -/
structure Within (part whole : Result) : Prop where
  visited : part.visited.Sublist whole.visited
  files : part.files.Sublist whole.files
  skipped : part.skipped.Sublist whole.skipped
  filesVisited : part.filesVisited ≤ whole.filesVisited
  dirsVisited : part.dirsVisited ≤ whole.dirsVisited
  matchCount : part.matchCount ≤ whole.matchCount
  filesWithMatches : part.filesWithMatches ≤ whole.filesWithMatches
  unusedCount : part.unusedCount ≤ whole.unusedCount

variable {tree : Tree} {r : Request}

/-- What is left out does not show in a result. -/
theorem tally_told (id : Text) (es : List Walk.Event) :
    tally tree id r (Walk.told es) = tally tree id r es := by
  have hfile : (Walk.told es).filterMap Walk.Event.file? = es.filterMap Walk.Event.file? :=
    Walk.filterMap_told (fun _ => rfl) es
  have hskip : (Walk.told es).filterMap Walk.Event.skip? = es.filterMap Walk.Event.skip? :=
    Walk.filterMap_told (fun _ => rfl) es
  have hlisted : (Walk.told es).countP (·.isListed) = es.countP (·.isListed) := by
    rw [Walk.told, List.countP_filter]
    refine List.countP_congr fun e _ => ?_
    cases e <;> simp [Walk.Event.isListed, Walk.Event.isIgnored]
  simp only [tally, Walk.stats, Walk.candidates, hfile, hskip, hlisted]

/-- The total over fewer records is not larger. -/
theorem sum_map_le {part whole : List FileRecord} (h : part.Sublist whole)
    (count : FileRecord → Nat) :
    (((part.map count).sum : Nat) : Int) ≤ ((whole.map count).sum : Nat) :=
  Int.ofNat_le.2 ((h.map count).sum_le_sum fun _ _ => Nat.zero_le _)

/-- Fewer events give a part of the result. -/
theorem within_tally {ds es : List Walk.Event} (h : ds.Sublist es) (id₁ id₂ : Text) :
    Within (tally tree id₁ r ds) (tally tree id₂ r es) := by
  have hfile := h.filterMap Walk.Event.file?
  have hpaths : (Walk.candidates r.extensions ds).Sublist (Walk.candidates r.extensions es) :=
    (hfile.filter _).map _
  have hfound := hpaths.filterMap (record? tree r)
  exact {
    visited := hfile.map _
    files := hfound
    skipped := (h.filterMap _).append (hpaths.filterMap _)
    filesVisited := Int.ofNat_le.2 (hfile.map _).length_le
    dirsVisited := Int.ofNat_le.2 h.countP_le
    matchCount := sum_map_le hfound _
    filesWithMatches := Int.ofNat_le.2 hfound.length_le
    unusedCount := sum_map_le hfound _ }

/-- Two searches of which one has all ignore entries of the other fail alike, or
    both succeed and the one with more entries finds a part of what the other
    finds. -/
theorem within_of_ignore_subset (hf : tree.Finite r.root) {few many : List Text}
    (h : ∀ e ∈ few, e ∈ many) (id₁ id₂ : Text) :
    (∃ f, Answers tree id₁ { r with ignore := few } (.error f) ∧
      Answers tree id₂ { r with ignore := many } (.error f)) ∨
    ∃ a b, Answers tree id₁ { r with ignore := few } (.ok a) ∧
      Answers tree id₂ { r with ignore := many } (.ok b) ∧ Within b.result a.result := by
  -- The entries decide neither whether a search starts, nor what it finds in a file.
  have hproblem (entries : List Text) :
      problem tree { r with ignore := entries } = problem tree r := rfl
  have htally (id : Text) (entries : List Text) (es : List Walk.Event) :
      tally tree id (carriedOut { r with ignore := entries }) es =
        tally tree id (carriedOut r) es := rfl
  cases hp : problem tree r with
  | some f =>
    exact Or.inl ⟨f, answers_error ((hproblem few).trans hp) id₁,
      answers_error ((hproblem many).trans hp) id₂⟩
  | none =>
    obtain ⟨a, ha, ha'⟩ :=
      exists_answers_ok (r := { r with ignore := few }) hf ((hproblem few).trans hp) id₁
    obtain ⟨b, hb, hb'⟩ :=
      exists_answers_ok (r := { r with ignore := many }) hf ((hproblem many).trans hp) id₂
    refine Or.inr ⟨a, b, ha, hb, ?_⟩
    rw [ha', hb', htally, htally, ← tally_told id₁, ← tally_told id₂]
    exact within_tally
      (Walk.sublist_told_descend (fun _ => IgnoreSet.ignores_load_mono h) hf) id₂ id₁

/-- With the entry `lib`, the file below it is not reached. -/
theorem within_of_ignore_subset_sample : ∃ a b,
    Answers Tree.sample [] { sampleRequest with ignore := [] } (.ok a) ∧
      Answers Tree.sample [] { sampleRequest with ignore := [text "lib"] } (.ok b) ∧
        Within b.result a.result ∧ b.result.visited = [text "p/a.js"] := by
  obtain ⟨f, hf, _⟩ | ⟨a, b, ha, hb, hwithin⟩ :=
    within_of_ignore_subset (r := sampleRequest) Tree.finite_sample
      (List.forall_mem_nil (· ∈ [text "lib"])) [] []
  · exact absurd (hf.unique (answers_of_search (rfl : search _ _ 9 _ = some (.ok _)))) (by simp)
  · refine ⟨a, b, ha, hb, hwithin, ?_⟩
    obtain rfl := Except.ok.inj
      (hb.unique (answers_of_search (rfl : search _ _ 9 _ = some (.ok _))))
    decide +kernel

end Search

end ImportFinder
