import ImportFinder.Ignore
import ImportFinder.Proofs.Text.Reader

/-!
# Entries of an ignore file

The entries of an ignore file should be those that stand on its lines, wherever
these are. They are as far as the file is read (`parse_eq`): that the reader takes
carriage returns off the lines and makes no line of what stands behind the last
line feed does not show in the entries. But the reader stops at the first line
that its buffer cannot hold, and nobody asks it why it did. So a line that is too
long hides the entries behind it, even if it is a comment
(`coverage_not_mem_parse`). Nothing else gets lost: `parse_up_to_long_line` says exactly
when all entries are there.
-/

namespace ImportFinder.IgnoreSet

open Text

theorem entriesOf_append (before behind : List Text) :
    entriesOf (before ++ behind) = entriesOf before ++ entriesOf behind := by
  rw [entriesOf, List.map_append, List.filter_append]
  rfl

theorem entriesOf_dropReturn (ls : List Text) : entriesOf (ls.map dropReturn) = entriesOf ls := by
  rw [entriesOf, List.map_map]
  exact congrArg (List.filter _) (List.map_congr_left fun line _ => trim_dropReturn line)

/-- The entries of an ignore file are those on its lines up to the first one that
    is too long. -/
theorem parse_eq (content : Text) :
    parse content = entriesOf ((lines content).takeWhile (·.length ≤ longestLine)) := by
  obtain ⟨tail, htail, hread⟩ := readLines_eq longestLine content
  -- An empty line at the end holds no entry.
  have hnone : entriesOf tail = [] := by rcases htail with rfl | rfl <;> rfl
  rw [parse, ← entriesOf_dropReturn (List.takeWhile _ _), hread, entriesOf_append, hnone,
    List.append_nil]

/-- What stands behind a line feed is read if no line before it is too long. -/
theorem parse_append (front back : Text) : parse (front ++ newline :: back) = parse front ++
    if (lines front).all (·.length ≤ longestLine) then parse back else [] := by
  have hlines : lines (front ++ newline :: back) = lines front ++ lines back :=
    split_append front back
  rw [parse_eq, parse_eq, parse_eq, hlines]
  split_ifs with hshort
  · rw [List.all_eq_true] at hshort
    rw [List.takeWhile_append_of_pos hshort, List.takeWhile_eq_self_iff.2 hshort, entriesOf_append]
  · -- Reading stops before the line feed.
    rw [List.takeWhile_append, if_neg, List.append_nil]
    intro hlength
    have hself := (List.takeWhile_prefix _).eq_of_length hlength
    exact hshort (List.all_eq_true.2 (List.takeWhile_eq_self_iff.1 hself))

/-- The entries of an ignore file are those on its lines up to the first one that
    is too long. They are all of them if, and only if, there is no entry from that
    line on, in particular if no line is too long. What stands behind a line feed
    changes nothing about the entries before it, and is read if no line before it
    is too long. -/
theorem parse_up_to_long_line (content : Text) :
    parse content = entriesOf ((lines content).takeWhile (·.length ≤ longestLine)) ∧
    (parse content = entriesOf (lines content) ↔
      entriesOf ((lines content).dropWhile (·.length ≤ longestLine)) = []) ∧
    ((∀ line ∈ lines content, line.length ≤ longestLine) →
      parse content = entriesOf (lines content)) ∧
    ∀ back, parse (content ++ newline :: back) = parse content ++
      if (lines content).all (·.length ≤ longestLine) then parse back else [] := by
  have hread := parse_eq content
  refine ⟨hread, ?_, fun hshort => ?_, parse_append content⟩
  · have hall : entriesOf (lines content) =
        entriesOf ((lines content).takeWhile (·.length ≤ longestLine)) ++
          entriesOf ((lines content).dropWhile (·.length ≤ longestLine)) := by
      rw [← entriesOf_append, List.takeWhile_append_dropWhile]
    rw [hread, hall, List.self_eq_append_right]
  · rw [hread, List.takeWhile_eq_self_iff.2 fun line hline => decide_eq_true (hshort line hline)]

/-- A comment of one byte more than is read, and an entry on the line behind it. -/
def longComment : Text := List.replicate (longestLine + 1) 0x23 ++ newline :: text "coverage\n"

/-- An entry is lost behind a comment that is too long. -/
theorem coverage_not_mem_parse :
    parse longComment = [] ∧ text "coverage" ∈ entriesOf (lines longComment) := by
  have hcomment : newline ∉ List.replicate (longestLine + 1) (0x23 : UInt8) := fun h =>
    absurd (List.eq_of_mem_replicate h) (by decide)
  have hlines : lines longComment =
      List.replicate (longestLine + 1) 0x23 :: lines (text "coverage\n") := by
    rw [longComment, lines, split_append, split_of_not_mem hcomment]
    rfl
  constructor
  · rw [parse_eq, hlines, List.takeWhile_cons_of_neg (by simp)]
    rfl
  · rw [hlines, ← List.singleton_append, entriesOf_append]
    exact List.mem_append_right _ (by decide +kernel)

end ImportFinder.IgnoreSet
