import ImportFinder.Proofs.Search.Consistency

/-!
# Lists of extensions

A search scans only the files whose names pass its list of extensions. The list
takes effect in the middle of the walk, where a file is reached and before it is
read. Still it amounts to a filter on what the search without a list finds
(`restricted_of_extensions`): both walks take the same way and reach the same
files, and of the records and of the files that could not be read those remain
whose names are accepted (`Walk.Accepted`).

What is found at a file belongs to a name through the listing in which the file
was reached (`Tree.HasFile`), so what is filtered are findings together with
such names (`FilteredBy`). If names are proper, then the name of a file is the
last component of its path, and the findings can be filtered by themselves.
-/

namespace ImportFinder

namespace Tree

/-- Names lead from the root down to a file with a path and a name. -/
def HasFile (tree : Tree) (root path name : Text) : Prop :=
  ∃ dirs e, tree.Reaches root dirs e ∧ e.kind = .file ∧ e.name = name ∧
    path = (dirs ++ [e.name]).foldl Path.join root

theorem HasFile.base_eq {tree : Tree} {root path name : Text} (hn : tree.WellNamed)
    (h : tree.HasFile root path name) : Path.base path = name := by
  obtain ⟨dirs, e, hr, _, rfl, rfl⟩ := h
  exact hr.base_foldl hn

end Tree

/-! ### Accepted names -/

namespace Walk

/-- A name is accepted by a list of extensions: nothing is left of the list, or
    the extension of the name is one of those that are left, when all of them
    are normalized. -/
def Accepted (extensions : List Text) (name : Text) : Prop :=
  (∀ e ∈ extensions, normalizeExtension e = []) ∨
    ∃ e ∈ extensions, normalizeExtension e ≠ [] ∧
      normalizeExtension e = normalizeExtension (Path.extension name)

instance (extensions : List Text) : DecidablePred (Accepted extensions) := fun name =>
  inferInstanceAs (Decidable ((∀ e ∈ extensions, normalizeExtension e = []) ∨
    ∃ e ∈ extensions, normalizeExtension e ≠ [] ∧
      normalizeExtension e = normalizeExtension (Path.extension name)))

/-- Normalizing drops one leading dot of the trimmed extension in lower case, if
    there is one, and nothing else. -/
theorem lower_trim_eq (e : Text) :
    Text.lower (Text.trim e) = Text.dot :: normalizeExtension e ∨
      Text.lower (Text.trim e) = normalizeExtension e ∧
        (normalizeExtension e).head? ≠ some Text.dot := by
  rw [normalizeExtension]
  cases Text.lower (Text.trim e) with
  | nil => exact .inr ⟨rfl, by simp⟩
  | cons b rest =>
    by_cases hb : b = Text.dot
    · exact .inl (by simp [hb])
    · exact .inr (by simp [hb])

theorem accepts_iff {extensions : List Text} {name : Text} :
    accepts extensions name = true ↔ Accepted extensions name := by
  have hleft : (extensions.map normalizeExtension).filter (!·.isEmpty) = [] ↔
      ∀ e ∈ extensions, normalizeExtension e = [] := by
    simp [List.filter_eq_nil_iff]
  have hmem : normalizeExtension (Path.extension name) ∈
      (extensions.map normalizeExtension).filter (!·.isEmpty) ↔
      ∃ e ∈ extensions, normalizeExtension e ≠ [] ∧
        normalizeExtension e = normalizeExtension (Path.extension name) := by
    rw [List.mem_filter, List.mem_map]
    constructor
    · rintro ⟨⟨e, he, heq⟩, hne⟩
      exact ⟨e, he, by simpa [heq] using hne, heq⟩
    · rintro ⟨e, he, hne, heq⟩
      exact ⟨⟨e, he, heq⟩, by simpa [← heq] using hne⟩
  rw [accepts, Bool.or_eq_true, List.isEmpty_iff, List.contains_iff_mem, hleft, hmem]
  rfl

end Walk

namespace Search

/-! ### Findings with names -/

/-- One list is another one without what was found at files whose names are not
    accepted: with each finding goes a name at which it was found. -/
def FilteredBy {α : Type} (accepted : Text → Prop) [DecidablePred accepted]
    (foundAt : α → Text → Prop) (whole part : List α) : Prop :=
  ∃ named : List (α × Text), named.map (·.1) = whole ∧
    (named.filter fun (_, name) => accepted name).map (·.1) = part ∧
      ∀ a name, (a, name) ∈ named → foundAt a name

section

variable {α : Type} {accepted : Text → Prop} [DecidablePred accepted]

/-- If what was found tells its name, no other name can go with it. -/
theorem FilteredBy.eq_filter {foundAt : α → Text → Prop} {whole part : List α}
    (h : FilteredBy accepted foundAt whole part) {nameOf : α → Text}
    (hname : ∀ a name, foundAt a name → nameOf a = name) :
    part = whole.filter fun a => accepted (nameOf a) := by
  obtain ⟨named, rfl, rfl, hfound⟩ := h
  rw [List.filter_map]
  refine congrArg _ (List.filter_congr fun ⟨a, name⟩ hmem => ?_)
  rw [Function.comp_apply, hname a name (hfound a name hmem)]

end

variable {tree : Tree} {r : Request} {extensions : List Text} {es : List Walk.Event}

theorem filterMap_candidates {α : Type} (g : Text → Option α) :
    (Walk.candidates extensions es).filterMap g = (es.filterMap Walk.Event.file?).filterMap
      fun file => if Walk.Accepted extensions file.2 then g file.1 else none := by
  rw [Walk.candidates, List.filterMap_map, List.filterMap_filter]
  refine List.filterMap_congr fun file _ => ?_
  simp only [Walk.accepts_iff, Function.comp_apply]

/-- What is found at the files that pass the list of extensions is what is found
    at all files, filtered. -/
theorem filteredBy_candidates {α : Type} (extensions : List Text) (es : List Walk.Event)
    (g : Text → Option α) {foundAt : α → Text → Prop}
    (h : ∀ path name a, .file path name ∈ es → g path = some a → foundAt a name) :
    FilteredBy (Walk.Accepted extensions) foundAt
      ((Walk.candidates [] es).filterMap g) ((Walk.candidates extensions es).filterMap g) := by
  rw [filterMap_candidates, filterMap_candidates]
  -- Findings are taken from the files that were reached, together with their names.
  refine ⟨(es.filterMap Walk.Event.file?).filterMap fun file =>
    (g file.1).map fun a => (a, file.2), ?_, ?_, ?_⟩
  · rw [List.map_filterMap]
    refine List.filterMap_congr fun file _ => ?_
    cases g file.1 <;> simp [Walk.Accepted]
  · rw [List.filter_filterMap, List.map_filterMap]
    refine List.filterMap_congr fun file _ => ?_
    by_cases ha : Walk.Accepted extensions file.2
    · cases g file.1 <;> simp [ha]
    · cases g file.1 <;> simp [ha]
  · intro a name hmem
    obtain ⟨⟨path, other⟩, hfile, heq⟩ := List.mem_filterMap.1 hmem
    obtain ⟨b, hb, hpair⟩ := Option.map_eq_some_iff.1 heq
    obtain ⟨rfl, rfl⟩ := Prod.mk.inj hpair
    obtain ⟨ev, hev, hev'⟩ := List.mem_filterMap.1 hfile
    exact h path other b (file?_eq_some_iff.1 hev' ▸ hev) hb

/-! ### Two searches -/

/-- A result is another one, restricted to a list of extensions. -/
structure Restricted (tree : Tree) (root : Text) (extensions : List Text)
    (whole part : Result) : Prop where
  visited : part.visited = whole.visited
  dirsVisited : part.dirsVisited = whole.dirsVisited
  files : FilteredBy (Walk.Accepted extensions) (fun f => tree.HasFile root f.path)
    whole.files part.files
  files_of_wellNamed : tree.WellNamed →
    part.files = whole.files.filter fun f => Walk.Accepted extensions (Path.base f.path)
  /-- The directories that could not be listed are the same, and the files that
      could not be read are filtered as the records are. -/
  skipped : ∃ dirs files kept, whole.skipped = dirs ++ files ∧ part.skipped = dirs ++ kept ∧
    (∀ s ∈ dirs, ∃ why, tree.list s.path = .error why ∧ s.error = why.message) ∧
    (∀ s ∈ files, ∃ why, tree.read s.path = .error why) ∧
    FilteredBy (Walk.Accepted extensions) (fun s => tree.HasFile root s.path) files kept ∧
    (tree.WellNamed → kept = files.filter fun s => Walk.Accepted extensions (Path.base s.path))

variable {ignore : IgnoreSet} {root : Text}

theorem hasFile_of_mem (hf : tree.Finite root) {path name : Text}
    (h : .file path name ∈ Walk.descend tree ignore root) : tree.HasFile root path name := by
  obtain ⟨dirs, e, hr, _, hfile⟩ := Walk.reaches_of_file_mem hf h
  exact ⟨dirs, e, hr, hfile⟩

/-- The directories that a result skips could not be listed. -/
theorem list_of_mem_skipped (hf : tree.Finite root) {s : Skip}
    (h : s ∈ (Walk.stats (Walk.descend tree ignore root)).skipped) :
    ∃ why, tree.list s.path = .error why ∧ s.error = why.message := by
  obtain ⟨ev, hev, hskip⟩ := List.mem_filterMap.1 h
  cases ev with
  | unreadable dir why =>
    obtain rfl := Option.some.inj hskip
    exact ⟨why, Walk.list_of_unreadable_mem hf hev, rfl⟩
  | _ => simp [Walk.Event.skip?] at hskip

theorem restricted_tally (hf : tree.Finite root) (id₁ id₂ : Text) :
    Restricted tree root extensions
      (tally tree id₁ { r with extensions := [] } (Walk.descend tree ignore root))
      (tally tree id₂ { r with extensions } (Walk.descend tree ignore root)) := by
  have hfiles : FilteredBy (Walk.Accepted extensions)
      (fun f : FileRecord => tree.HasFile root f.path) _ _ :=
    filteredBy_candidates extensions (Walk.descend tree ignore root) (record? tree r)
      fun path name f hev hrecord => by
      obtain ⟨_, _, _, rfl⟩ := record?_eq_some_iff.1 hrecord
      exact hasFile_of_mem hf hev
  have hskips : FilteredBy (Walk.Accepted extensions)
      (fun s : Skip => tree.HasFile root s.path) _ _ :=
    filteredBy_candidates extensions (Walk.descend tree ignore root) (skip? tree r)
      fun path name s hev hskip => by
      obtain ⟨_, _, rfl⟩ := skip?_eq_some_iff.1 hskip
      exact hasFile_of_mem hf hev
  exact {
    visited := rfl
    dirsVisited := rfl
    files := hfiles
    files_of_wellNamed := fun hn => hfiles.eq_filter fun _ _ => Tree.HasFile.base_eq hn
    skipped := ⟨_, _, _, rfl, rfl, fun _ => list_of_mem_skipped hf, fun _ => read_of_mem_skips,
      hskips, fun hn => hskips.eq_filter fun _ _ => Tree.HasFile.base_eq hn⟩ }

/-- A search with a list of extensions and one without fail alike, or both
    succeed and what the first one finds is what the second one finds,
    restricted to the accepted names. -/
theorem restricted_of_extensions (hf : tree.Finite r.root) (extensions : List Text)
    (id₁ id₂ : Text) :
    ((∃ f, Answers tree id₁ { r with extensions := [] } (.error f) ∧
      Answers tree id₂ { r with extensions } (.error f)) ∨
    ∃ a b, Answers tree id₁ { r with extensions := [] } (.ok a) ∧
      Answers tree id₂ { r with extensions } (.ok b) ∧
        Restricted tree r.root extensions a.result b.result) ∧
    ∀ e, Text.lower (Text.trim e) = Text.dot :: Walk.normalizeExtension e ∨
      Text.lower (Text.trim e) = Walk.normalizeExtension e ∧
        (Walk.normalizeExtension e).head? ≠ some Text.dot := by
  refine ⟨?_, Walk.lower_trim_eq⟩
  refine (answers_alike { r with extensions := [] } { r with extensions } hf hf rfl
    id₁ id₂).imp_right ?_
  rintro ⟨a, b, ha, hb, ha', hb'⟩
  refine ⟨a, b, ha, hb, ?_⟩
  rw [ha', hb']
  exact restricted_tally (r := carriedOut r) hf id₁ id₂

/-- With `.Ts` as the only extension both files are reached, but none is read. -/
theorem restricted_of_extensions_sample : ∃ a b,
    Answers Tree.sample [] { sampleRequest with extensions := [] } (.ok a) ∧
      Answers Tree.sample [] { sampleRequest with extensions := [text " .Ts"] } (.ok b) ∧
        Restricted Tree.sample (text "p") [text " .Ts"] a.result b.result ∧
          b.result.visited = [text "p/a.js", text "p/lib/b.js"] ∧
            b.result.files = [] ∧ b.result.skipped.map (·.path) = [text "p/locked"] := by
  obtain ⟨f, hf, _⟩ | ⟨a, b, ha, hb, hrestricted⟩ :=
    (restricted_of_extensions (r := sampleRequest) Tree.finite_sample [text " .Ts"] [] []).1
  · exact absurd (hf.unique (answers_of_search (rfl : search _ _ 9 _ = some (.ok _)))) (by simp)
  · refine ⟨a, b, ha, hb, hrestricted, ?_⟩
    obtain rfl := Except.ok.inj
      (hb.unique (answers_of_search (rfl : search _ _ 9 _ = some (.ok _))))
    decide +kernel

end Search

end ImportFinder
