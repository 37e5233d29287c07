import ImportFinder.Proofs.Text.Split
import ImportFinder.Proofs.Text.Trim
import ImportFinder.Text.Reader

/-!
# The lines that are read

Reading a text line by line gives the pieces between its line feeds up to the
first one that is too long, without the carriage returns at their ends and
without an empty piece at the end of the text (`readLines_eq`). What is read of a
line with a carriage return does not show after trimming (`trim_dropReturn`).
-/

namespace ImportFinder.Text

variable {longest : Nat}

theorem dropReturn_nil : dropReturn [] = [] := rfl

theorem trim_dropReturn (line : Text) : trim (dropReturn line) = trim line := by
  rw [dropReturn]
  split_ifs with hreturn
  · obtain ⟨front, rfl⟩ := List.getLast?_eq_some_iff.1 hreturn
    rw [List.dropLast_concat, trim_append_space (by decide)]
  · rfl

/-- In the middle of a line, what is read from there on are the pieces of the
    line and of what follows it. -/
theorem readLinesFrom_eq (room : Nat) (read t : Text) (hroom : room + read.length = longest)
    (hread : newline ∉ read) : ∃ tail, (tail = [] ∨ tail = [[]]) ∧
      ((lines (read.reverse ++ t)).takeWhile (·.length ≤ longest)).map dropReturn =
        readLinesFrom longest room read t ++ tail := by
  have hread' : newline ∉ read.reverse := fun h => hread (List.mem_reverse.1 h)
  induction t generalizing room read with
  | nil =>
    have hlines : (lines (read.reverse ++ [])).takeWhile (·.length ≤ longest) = [read.reverse] := by
      have hshort : read.length ≤ longest := by omega
      rw [List.append_nil, lines, split_of_not_mem hread']
      simp [hshort]
    rw [hlines, List.map_singleton, readLinesFrom]
    split_ifs with hempty
    · -- Nothing stands behind the last line feed.
      refine ⟨[[]], .inr rfl, ?_⟩
      rw [List.isEmpty_iff.1 hempty, List.reverse_nil, dropReturn_nil, List.nil_append]
    · exact ⟨[], .inl rfl, by rw [List.append_nil]⟩
  | cons b t ih =>
    rw [readLinesFrom]
    split_ifs with hb hfull
    · -- The line ends here, and what follows is read with an empty buffer.
      have hshort : read.length ≤ longest := by omega
      obtain ⟨tail, htail, hrest⟩ := ih longest [] rfl List.not_mem_nil List.not_mem_nil
      refine ⟨tail, htail, ?_⟩
      rw [List.reverse_nil, List.nil_append] at hrest
      rw [hb, lines, split_append, split_of_not_mem hread', List.singleton_append,
        List.takeWhile_cons_of_pos (by simpa using hshort), List.map_cons, List.cons_append]
      exact congrArg _ hrest
    · -- The line goes on, but there is no room for it.
      obtain ⟨piece, more, ht⟩ := List.exists_cons_of_ne_nil (split_ne_nil newline t)
      have hlong : ¬ (read.reverse ++ b :: piece).length ≤ longest := by
        rw [List.length_append, List.length_reverse, List.length_cons]
        omega
      refine ⟨[], .inl rfl, ?_⟩
      rw [lines, split_append_of_not_mem hread' (split_cons_of_ne hb ht),
        List.takeWhile_cons_of_neg (by simpa using hlong)]
      rfl
    · have hmem : newline ∉ b :: read := by
        rw [List.mem_cons, not_or]
        exact ⟨Ne.symm hb, hread⟩
      have hnext := ih (room - 1) (b :: read) (by rw [List.length_cons]; omega) hmem
        fun h => hmem (List.mem_reverse.1 h)
      rwa [List.reverse_cons, List.append_assoc, List.singleton_append] at hnext

/-- What is read are the pieces between line feeds up to the first one that is
    too long, but for an empty one at the end. -/
theorem readLines_eq (longest : Nat) (t : Text) : ∃ tail, (tail = [] ∨ tail = [[]]) ∧
    ((lines t).takeWhile (·.length ≤ longest)).map dropReturn = readLines longest t ++ tail :=
  readLinesFrom_eq longest [] t rfl List.not_mem_nil

end ImportFinder.Text
