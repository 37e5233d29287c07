import ImportFinder.Proofs.Matching.Occurrence
import ImportFinder.Scan
import Mathlib.Data.List.Basic

/-!
# What a scan finds

A scan looks the whole content of a file through before it looks at its lines.
That costs no match: the record of a file has one match for every line that
references the target (`hits_scan`), as looking at every line would give
(`scanLines_eq`). The matches stand in the order of their lines
(`pairwise_line_scanLines`), whose numbers are those of lines of the file
(`line_le_of_mem_scanLines`). So a scan is the same as one without this shortcut
(`scan_eq_plainScan`).
-/

namespace ImportFinder

/-- The lines of a text that reference the target, with their numbers, counted
    from one. -/
def referenceLines (mode : MatchMode) (name content : Text) : List (Text × Nat) :=
  ((Text.lines content).zipIdx 1).filter fun (line, _) => Matching.isReference mode name line

variable {mode : MatchMode} {target : Target} {name path content : Text}

theorem matchOfLine_line (number : Nat) (line : Text) :
    (matchOfLine content number line).line = number := by
  rw [matchOfLine]
  cases Matching.importedName? line <;> rfl

theorem matchOfLine_content (number : Nat) (line : Text) :
    (matchOfLine content number line).content = Text.trim line := by
  rw [matchOfLine]
  cases Matching.importedName? line <;> rfl

/-- The matches of a file are those of the lines that reference the target. -/
theorem scanLines_eq : scanLines mode name content =
    (referenceLines mode name content).map fun (line, number) =>
      matchOfLine content number line := by
  rw [scanLines, matchesOfLines, referenceLines, ← List.filterMap_eq_map, List.filterMap_filter,
    List.zipIdx_succ, List.filterMap_map]
  rfl

/-- Matches hold the trimmed lines that reference the target, and their
    numbers. -/
theorem map_content_scanLines :
    (scanLines mode name content).map (fun m => (m.content, m.line)) =
      (referenceLines mode name content).map fun (line, number) => (Text.trim line, number) := by
  rw [scanLines_eq, List.map_map]
  refine List.map_congr_left fun ⟨line, number⟩ _ => ?_
  exact Prod.ext (matchOfLine_content number line) (matchOfLine_line number line)

theorem scanLines_eq_nil_iff : scanLines mode name content = [] ↔
    ∀ line ∈ Text.lines content, Matching.isReference mode name line = false := by
  rw [scanLines_eq, List.map_eq_nil_iff, referenceLines, List.filter_eq_nil_iff]
  conv_rhs => rw [← List.zipIdx_map_fst 1 (Text.lines content)]
  rw [List.forall_mem_map]
  simp only [Bool.not_eq_true]

/-- A file without a line that references the target has no list of matches. -/
theorem scan_of_eq_nil (h : scanLines mode target.name content = []) :
    scan mode target path content = { path } := by
  rw [scan, h]
  split_ifs <;> rfl

/-- Looking the whole content through first costs no match. -/
theorem scan_of_ne_nil (h : scanLines mode target.name content ≠ []) :
    scan mode target path content =
      { path, listed := some (scanLines mode target.name content) } := by
  -- A line that references the target would show in the whole content.
  have hhas : Matching.hasTarget mode target.name content = true := by
    by_contra hhas
    refine h (scanLines_eq_nil_iff.2 fun line hline => Bool.eq_false_iff.2 fun href => hhas ?_)
    exact Matching.hasTarget_of_isReference hline href
  obtain ⟨first, more, hfound⟩ := List.exists_cons_of_ne_nil h
  rw [scan, if_pos hhas, hfound]

theorem hits_scan :
    (scan mode target path content).hits = scanLines mode target.name content := by
  by_cases h : scanLines mode target.name content = []
  · rw [scan_of_eq_nil h, h]
    rfl
  · rw [scan_of_ne_nil h]
    rfl

theorem map_fst_referenceLines : (referenceLines mode name content).map Prod.fst =
    (Text.lines content).filter (Matching.isReference mode name) := by
  have hfilter : (referenceLines mode name content).map Prod.fst =
      (((Text.lines content).zipIdx 1).map Prod.fst).filter (Matching.isReference mode name) := by
    rw [List.filter_map]
    rfl
  rw [hfilter, List.zipIdx_map_fst]

/-- The matches of a file show the trimmed lines that reference the target. -/
theorem map_content_hits_scan (path : Text) :
    (scan mode target path content).hits.map (·.content) =
      ((Text.lines content).filter (Matching.isReference mode target.name)).map Text.trim := by
  rw [hits_scan, scanLines_eq, List.map_map, ← map_fst_referenceLines, List.map_map]
  exact List.map_congr_left fun x _ => matchOfLine_content _ _

/-! ### The match mode -/

/-- Without a mode, lines are looked at as in the default one. -/
theorem isReference_orDefault (line : Text) :
    Matching.isReference mode.orDefault name line = Matching.isReference mode name line := by
  rw [MatchMode.orDefault]
  split_ifs with hmode
  · rw [hmode]
    rfl
  · rfl

/-! ### The numbers of lines -/

theorem map_line_scanLines : (scanLines mode name content).map (·.line) =
    ((referenceLines mode name content).map (·.2)).map Int.ofNat := by
  rw [scanLines_eq, List.map_map, List.map_map]
  exact List.map_congr_left fun x _ => matchOfLine_line _ _

theorem sublist_numbers :
    ((referenceLines mode name content).map (·.2)).Sublist
      (List.range' 1 (Text.lines content).length) := by
  rw [← List.zipIdx_map_snd]
  exact List.filter_sublist.map _

/-- The matches of a file stand in the order of their lines. -/
theorem pairwise_line_scanLines :
    ((scanLines mode name content).map (·.line)).Pairwise (· < ·) := by
  rw [map_line_scanLines, List.pairwise_map]
  refine ((List.pairwise_lt_range' 1).sublist sublist_numbers).imp fun h => ?_
  exact Int.ofNat_lt.2 h

/-- The matches of a file are on lines of the file. -/
theorem line_le_of_mem_scanLines {m : Match} (hm : m ∈ scanLines mode name content) :
    1 ≤ m.line ∧ m.line ≤ (Text.lines content).length := by
  have hline := List.mem_map_of_mem (f := fun m : Match => m.line) hm
  rw [map_line_scanLines, List.mem_map] at hline
  obtain ⟨number, hnumber, hline⟩ := hline
  have hrange := List.mem_range'_1.1 (sublist_numbers.subset hnumber)
  rw [← hline]
  exact ⟨Int.ofNat_le.2 hrange.1, Int.ofNat_le.2 (by omega)⟩

/-! ### The shortcut -/

/-- The record of a file, found by taking the lines that reference the target
    one by one, without a look at the whole content. -/
def plainScan (mode : MatchMode) (target : Target) (path content : Text) : FileRecord :=
  match (referenceLines mode target.name content).map fun (line, number) =>
      matchOfLine content number line with
  | [] => { path }
  | found => { path, listed := some found }

/-- A scan reports matches if and only if some line references the target. -/
theorem isEmpty_hits_scan : (!(scan mode target path content).hits.isEmpty) =
    (Text.lines content).any (Matching.isReference mode target.name) := by
  rw [hits_scan, Bool.eq_iff_iff, Bool.not_eq_true', List.isEmpty_eq_false_iff, ne_eq,
    scanLines_eq_nil_iff, List.any_eq_true]
  simp

/-- A content without the target has no line that references it. -/
theorem isReference_eq_false (h : Matching.hasTarget mode name content = false) :
    ∀ line ∈ Text.lines content, Matching.isReference mode name line = false := by
  intro line hline
  rw [← Bool.not_eq_true] at h ⊢
  exact fun href => h (Matching.hasTarget_of_isReference hline href)

/-- Looking the whole content through first changes nothing: the record is that
    of the plain scan, a content that is passed over has no line that references
    the target, and whether a match is reported depends on the lines alone. -/
theorem scan_eq_plainScan :
    scan mode target path content = plainScan mode target path content ∧
      (Matching.hasTarget mode target.name content = false →
        ∀ line ∈ Text.lines content, Matching.isReference mode target.name line = false) ∧
      (!(scan mode target path content).hits.isEmpty) =
        (Text.lines content).any (Matching.isReference mode target.name) := by
  refine ⟨?_, isReference_eq_false, isEmpty_hits_scan⟩
  rw [plainScan, ← scanLines_eq]
  by_cases h : scanLines mode target.name content = []
  · rw [scan_of_eq_nil h, h]
  · obtain ⟨first, more, hfound⟩ := List.exists_cons_of_ne_nil h
    rw [scan_of_ne_nil h, hfound]

end ImportFinder
