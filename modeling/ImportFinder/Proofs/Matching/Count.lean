import ImportFinder.Proofs.Matching.Occurrence
import Mathlib

/-!
# How often a token occurs

The occurrences of a token are found in one search through the whole text. If no
line feed lies in the token, the search starts anew with every line: no
occurrence reaches over the end of a line, so that none of its bytes are skipped
on the next one, and a line feed is as good a boundary as an end of the text
(`length_occurrencesFrom_append`). So the occurrences on the lines of a text add
up to those in the text (`countOccurrences_eq_sum`).

All that matters of a line feed is that it belongs to no word and separates no
segments (`IsEdge`), so the same is shown for any such byte.
-/

namespace ImportFinder.Matching

variable {boundary : Boundary} {token : Text} {sep : UInt8}

/-- A token occurs in a text if and only if it is counted there. -/
theorem occurs_iff_pos {t : Text} :
    occurs boundary token t = true ↔ 0 < countOccurrences boundary token t := by
  rw [occurs, countOccurrences, Bool.not_eq_true', List.isEmpty_eq_false_iff,
    List.length_pos_iff]

/-! ### Bytes that are as good as the end of a text -/

/-- A byte that belongs to no word and separates no segments. -/
structure IsEdge (b : UInt8) : Prop where
  isWordByte : isWordByte b = false
  isSeparator : isSeparator b = false

theorem isEdge_newline : IsEdge Text.newline := ⟨by decide, by decide⟩

theorem isEdge_carriageReturn : IsEdge Text.carriageReturn := ⟨by decide, by decide⟩

/-- An edge before an occurrence is as good as the start of the text. -/
theorem IsEdge.accepts_left (h : IsEdge sep) (after : Option UInt8) :
    boundary.accepts (some sep) after = boundary.accepts none after := by
  cases boundary <;> simp [Boundary.accepts, h.isWordByte, h.isSeparator]

/-- An edge behind an occurrence is as good as the end of the text. -/
theorem IsEdge.accepts_right (h : IsEdge sep) (before : Option UInt8) :
    boundary.accepts before (some sep) = boundary.accepts before none := by
  cases boundary <;> simp [Boundary.accepts, h.isWordByte]

/-- How many occurrences there are does not depend on where the text starts. -/
theorem length_occurrencesFrom_offset {skip : Nat} {before : Option UInt8}
    {offset : Nat} (offset' : Nat) {t : Text} :
    (occurrencesFrom boundary token skip before offset t).length =
      (occurrencesFrom boundary token skip before offset' t).length := by
  induction t generalizing skip before offset offset' with
  | nil => cases skip <;> rfl
  | cons b rest ih =>
    cases skip with
    | succ skip => exact ih (offset' + 1)
    | zero =>
      rw [occurrencesFrom, occurrencesFrom]
      split_ifs
      · rw [List.length_cons, List.length_cons, ih (offset' + 1)]
      · exact ih (offset' + 1)

/-- A search behind an edge finds as much as one at the start of a text. -/
theorem length_occurrencesFrom_edge (hsep : IsEdge sep) {offset : Nat} {t : Text} :
    (occurrencesFrom boundary token 0 (some sep) offset t).length =
      (occurrencesFrom boundary token 0 none 0 t).length := by
  cases t with
  | nil => rfl
  | cons b rest =>
    rw [occurrencesFrom, occurrencesFrom, hsep.accepts_left]
    split_ifs
    · rw [List.length_cons, List.length_cons, length_occurrencesFrom_offset (0 + 1)]
    · exact length_occurrencesFrom_offset (0 + 1)

theorem isPrefixOf_append (hmem : sep ∉ token) (s t : Text) :
    token.isPrefixOf (s ++ sep :: t) = token.isPrefixOf s := by
  rw [Bool.eq_iff_iff, List.isPrefixOf_iff_prefix, List.isPrefixOf_iff_prefix,
    Text.prefix_append_iff hmem]

/-- Whether a token stands at the start of a piece is seen on the piece alone. -/
theorem found_append (hsep : IsEdge sep) (hmem : sep ∉ token) (before : Option UInt8)
    (s t : Text) :
    (token.isPrefixOf (s ++ sep :: t) &&
        boundary.accepts before ((s ++ sep :: t).drop token.length).head?) =
      (token.isPrefixOf s && boundary.accepts before (s.drop token.length).head?) := by
  rw [isPrefixOf_append hmem]
  by_cases hfront : token <+: s
  · obtain ⟨back, rfl⟩ := hfront
    rw [List.append_assoc, List.drop_left, List.drop_left]
    cases back with
    | nil => exact congrArg _ (hsep.accepts_right before)
    | cons b back => rfl
  · rw [← List.isPrefixOf_iff_prefix, Bool.not_eq_true] at hfront
    rw [hfront, Bool.false_and, Bool.false_and]

/-- The search starts anew behind an edge: whatever is skipped at the start of
    the text ends before it. -/
theorem length_occurrencesFrom_append (hsep : IsEdge sep) (htoken : token ≠ [])
    (hmem : sep ∉ token) {skip : Nat} {before : Option UInt8} {offset : Nat} {s : Text}
    (hskip : skip ≤ s.length) (t : Text) :
    (occurrencesFrom boundary token skip before offset (s ++ sep :: t)).length =
      (occurrencesFrom boundary token skip before offset s).length +
        (occurrencesFrom boundary token 0 none 0 t).length := by
  induction s generalizing skip before offset with
  | nil =>
    obtain rfl : skip = 0 := Nat.le_zero.1 hskip
    have hfront : ¬ token.isPrefixOf (sep :: t) = true := by
      rw [List.isPrefixOf_iff_prefix]
      exact fun h => htoken (List.prefix_nil.1 ((Text.prefix_append_iff hmem).1 h))
    have hpass : occurrencesFrom boundary token 0 before offset (sep :: t) =
        occurrencesFrom boundary token 0 (some sep) (offset + 1) t := by
      rw [occurrencesFrom, if_neg (by simp [hfront])]
    rw [List.nil_append, hpass, length_occurrencesFrom_edge hsep, occurrencesFrom, List.length_nil,
      Nat.zero_add]
  | cons b s ih =>
    cases skip with
    | succ skip => exact ih (Nat.le_of_succ_le_succ hskip)
    | zero =>
      rw [List.cons_append, occurrencesFrom, occurrencesFrom, ← List.cons_append,
        found_append hsep hmem]
      split_ifs with h
      · -- The token lies before the edge, and so does what is skipped for it.
        rw [Bool.and_eq_true, List.isPrefixOf_iff_prefix] at h
        have hlength := h.1.length_le
        rw [List.length_cons] at hlength
        rw [List.length_cons, List.length_cons, ih (by omega), Nat.add_right_comm]
      · exact ih (Nat.zero_le _)

@[simp]
theorem countOccurrences_nil : countOccurrences boundary token [] = 0 := by
  simp [countOccurrences, occurrences, occurrencesFrom]

/-- The occurrences before and behind an edge add up. -/
theorem countOccurrences_append (hsep : IsEdge sep) (hmem : sep ∉ token) (s t : Text) :
    countOccurrences boundary token (s ++ sep :: t) =
      countOccurrences boundary token s + countOccurrences boundary token t := by
  by_cases htoken : token = []
  · simp [countOccurrences, occurrences, htoken]
  · have hempty : token.isEmpty = false := List.isEmpty_eq_false_iff.2 htoken
    simp only [countOccurrences, occurrences, hempty]
    exact length_occurrencesFrom_append hsep htoken hmem (Nat.zero_le _) t

/-! ### Lines -/

theorem countOccurrences_joinWith (hline : Text.newline ∉ token) (pieces : List Text) :
    countOccurrences boundary token (Text.joinWith [Text.newline] pieces) =
      (pieces.map (countOccurrences boundary token)).sum := by
  induction pieces with
  | nil => exact countOccurrences_nil
  | cons first more ih =>
    by_cases hmore : more = []
    · simp [hmore, Text.joinWith]
    · rw [Text.joinWith_cons hmore, List.singleton_append,
        countOccurrences_append isEdge_newline hline, ih, List.map_cons, List.sum_cons]

/-- The occurrences of a token on the lines of a text add up to those in the
    whole text. -/
theorem countOccurrences_eq_sum (hline : Text.newline ∉ token) (t : Text) :
    countOccurrences boundary token t =
      ((Text.lines t).map (countOccurrences boundary token)).sum := by
  rw [← countOccurrences_joinWith hline, Text.lines, Text.joinWith_split]

end ImportFinder.Matching
