import ImportFinder.Matching.Line
import ImportFinder.Proofs.Matching.Binding
import ImportFinder.Proofs.Matching.Count
import ImportFinder.Proofs.Text.Trim

/-!
# Carriage returns at the end of a line

Lines are cut at line feeds, so a line of a text that was written with carriage
returns has one at its end. Whatever is asked about a line has the same answer
with and without it: a carriage return is white space and a gap, belongs to no
word, separates no segments, and no mark or word that is looked for holds one.
For the target this has to be assumed (`isReference_append_return`); of an
imported identifier it is known (`importedName?_append_return`).
-/

namespace ImportFinder.Matching

open Text

variable {boundary : Boundary} {token name line binding : Text}

theorem countOccurrences_append_return (hmem : carriageReturn ∉ token) (line : Text) :
    countOccurrences boundary token (line ++ [carriageReturn]) =
      countOccurrences boundary token line := by
  rw [countOccurrences_append isEdge_carriageReturn hmem, countOccurrences_nil, Nat.add_zero]

theorem occurs_append_return (hmem : carriageReturn ∉ token) (line : Text) :
    occurs boundary token (line ++ [carriageReturn]) = occurs boundary token line := by
  rw [Bool.eq_iff_iff, occurs_iff_pos, occurs_iff_pos, countOccurrences_append_return hmem]

theorem hasWord_append_return (hmem : carriageReturn ∉ token) (line : Text) :
    hasWord token (line ++ [carriageReturn]) = hasWord token line :=
  occurs_append_return hmem line

theorem occursIn_append_return (hmem : carriageReturn ∉ token) (line : Text) :
    occursIn token (line ++ [carriageReturn]) = occursIn token line := by
  induction line with
  | nil =>
    have hfront : token.isPrefixOf [carriageReturn] = token.isPrefixOf [] :=
      isPrefixOf_append hmem [] []
    change (token.isPrefixOf [carriageReturn] || token.isEmpty) = token.isEmpty
    rw [hfront]
    cases token <;> rfl
  | cons b line ih =>
    have hfront := isPrefixOf_append hmem (b :: line) []
    rw [List.cons_append] at hfront ⊢
    rw [occursIn, occursIn, hfront, ih]

theorem isComment_append_return (line : Text) :
    isComment (line ++ [carriageReturn]) = isComment line := by
  have hmark : carriageReturn ∉ text "//" := by decide
  rw [isComment, isComment, List.dropWhile_append]
  split_ifs with hempty
  · -- A line of nothing but blanks and tabulators is no comment.
    rw [List.isEmpty_iff.1 hempty]
    decide
  · exact isPrefixOf_append hmark _ _

theorem hasImportCue_append_return (line : Text) :
    hasImportCue (line ++ [carriageReturn]) = hasImportCue line := by
  simp only [hasImportCue, List.any_cons, List.any_nil,
    hasWord_append_return (by decide : carriageReturn ∉ text "import"),
    hasWord_append_return (by decide : carriageReturn ∉ text "from"),
    hasWord_append_return (by decide : carriageReturn ∉ text "require"),
    occursIn_append_return (by decide : carriageReturn ∉ text "./"),
    occursIn_append_return (by decide : carriageReturn ∉ text "../")]

/-- A line references the target with or without a carriage return at its end. -/
theorem isReference_append_return {mode : MatchMode} (hname : carriageReturn ∉ name)
    (line : Text) :
    isReference mode name (line ++ [carriageReturn]) = isReference mode name line := by
  rw [isReference, isReference, hasWord_append_return hname,
    hasWord_append_return (by decide : carriageReturn ∉ text "import"),
    hasWord_append_return (by decide : carriageReturn ∉ text "require"),
    isComment_append_return, occurs_append_return hname, hasImportCue_append_return]

/-! ### Import statements -/

theorem stops_append_return_iff {rest : Text} :
    Stops isWordByte (rest ++ [carriageReturn]) ↔ Stops isWordByte rest := by
  cases rest with
  | nil =>
    refine iff_of_true (stops_cons (by decide) _) fun b hb => ?_
    exact absurd hb (by simp)
  | cons b rest => exact Iff.rfl

/-- A statement may have a carriage return at its end or not: it stands behind
    the word `from`. -/
theorem statement_append_return_iff :
    Statement binding (line ++ [carriageReturn]) ↔ Statement binding line := by
  constructor
  · intro h
    generalize hline : line ++ [carriageReturn] = t at h
    obtain @⟨start, gap, second, gap', rest, hstart, hgap, hne, hbinding, hsecond, hgap', hne',
      hrest⟩ := h
    obtain rfl | ⟨rest, b, rfl⟩ := List.eq_nil_or_concat rest
    · -- The last byte of the word is another one.
      have hfrom : (text "from").getLast? = some 0x6D := by decide
      have hlast := congrArg List.getLast? hline
      simp only [List.getLast?_append, List.getLast?_singleton, List.append_nil, hfrom,
        Option.some_or] at hlast
      exact absurd (Option.some.inj hlast) (by decide)
    · rw [List.concat_eq_append] at hline hrest
      simp only [← List.append_assoc] at hline
      obtain ⟨rfl, hb⟩ := List.append_inj' hline rfl
      rw [← List.singleton_inj.1 hb] at hrest
      simp only [List.append_assoc]
      exact .intro hstart hgap hne hbinding hsecond hgap' hne' (stops_append_return_iff.1 hrest)
  · rintro @⟨start, gap, second, gap', rest, hstart, hgap, hne, hbinding, hsecond, hgap', hne',
      hrest⟩
    simp only [List.append_assoc]
    exact .intro hstart hgap hne hbinding hsecond hgap' hne' (stops_append_return_iff.2 hrest)

theorem importBinding?_append_return (line : Text) :
    importBinding? (line ++ [carriageReturn]) = importBinding? line := by
  ext binding
  rw [importBinding?_eq_some_iff, importBinding?_eq_some_iff, statement_append_return_iff]

/-- A line imports the same identifier with or without a carriage return at its
    end. -/
theorem importedName?_append_return (line : Text) :
    importedName? (line ++ [carriageReturn]) = importedName? line := by
  rw [importedName?, importedName?, importBinding?_append_return]

theorem carriageReturn_not_mem_importedName (h : importedName? line = some name) :
    carriageReturn ∉ name := fun hmem =>
  absurd (isIdentifierByte_of_mem (importedName?_eq_some h).1 _ hmem) (by decide)

end ImportFinder.Matching
