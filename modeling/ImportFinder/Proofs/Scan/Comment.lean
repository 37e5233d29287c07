import ImportFinder.Proofs.Scan
import ImportFinder.Proofs.Text.Trim

/-!
# Comments among the matches

In path mode a comment is no reference. Whether a line is one is looked up behind
the blanks and tabulators at its start, while a match shows the line without any
white space around it. So a match shows a comment where other white space stands
before the mark: a form feed, a carriage return, a no-break space. These are the
only ones (`isComment_iff`), and whenever such a line names the target and looks
like an import there is a match for it (`comment_reported_iff`).
-/

namespace ImportFinder

namespace Matching

variable {line : Text}

/-- The mark with which a comment starts. -/
def commentMark : Text := text "//"

/-- A line behind the blanks and tabulators at its start. -/
def afterIndent (line : Text) : Text :=
  line.dropWhile fun b => b == Text.blank || b == Text.tab

theorem isSpaceByte_of_mem_commentMark : ∀ b ∈ commentMark, Text.isSpaceByte b = false := by
  have hnone : commentMark.any Text.isSpaceByte = false := by decide
  intro b hb
  exact Bool.eq_false_iff.2 (List.any_eq_false.1 hnone b hb)

theorem leadingSpace_of_commentMark {t : Text} (h : commentMark <+: t) :
    Text.leadingSpace t = 0 := by
  obtain ⟨rest, rfl⟩ := h
  exact Text.leadingSpace_eq_zero (by decide) _

/-- A trimmed line starts with the mark of a comment if the line does behind its
    white space. -/
theorem commentMark_prefix_trim_iff :
    commentMark <+: Text.trim line ↔ commentMark <+: Text.trimStart (afterIndent line) := by
  have hindent : ∀ b, (b == Text.blank || b == Text.tab) = true → Text.isAsciiSpace b = true := by
    intro b hb
    rw [Bool.or_eq_true, beq_iff_eq, beq_iff_eq] at hb
    rcases hb with rfl | rfl <;> decide
  rw [Text.trim, Text.prefix_trimEnd_iff isSpaceByte_of_mem_commentMark, afterIndent,
    Text.trimStart_dropWhile hindent]

/-- A line is a comment if it starts with the mark when it is trimmed, and no
    white space but blanks and tabulators stands first. -/
theorem isComment_iff : isComment line = true ↔
    commentMark <+: Text.trim line ∧ Text.leadingSpace (afterIndent line) = 0 := by
  have hfront : isComment line = true ↔ commentMark <+: afterIndent line :=
    List.isPrefixOf_iff_prefix
  rw [commentMark_prefix_trim_iff, hfront]
  constructor
  · intro h
    have hspace := leadingSpace_of_commentMark h
    exact ⟨by rwa [Text.trimStart_of_leadingSpace hspace], hspace⟩
  · rintro ⟨h, hspace⟩
    rwa [Text.trimStart_of_leadingSpace hspace] at h

/-- In path mode the comments among the references are those that other white
    space hides. -/
theorem isReference_comment_iff {mode : MatchMode} {name : Text} (hmode : mode ≠ .word)
    (hmark : commentMark <+: Text.trim line) : isReference mode name line = true ↔
      hasTarget mode name line = true ∧ hasImportCue line = true ∧
        0 < Text.leadingSpace (afterIndent line) := by
  have hpath : mode.isWord = false := beq_eq_false_iff_ne.2 hmode
  have hcomment : isComment line = false ↔ 0 < Text.leadingSpace (afterIndent line) := by
    rw [← Bool.not_eq_true, isComment_iff, and_iff_right hmark, Nat.pos_iff_ne_zero]
  rw [isReference, hasTarget, boundary, hpath, if_neg Bool.false_ne_true,
    if_neg Bool.false_ne_true, Bool.and_eq_true, Bool.and_eq_true, Bool.not_eq_true', hcomment]
  constructor
  · rintro ⟨⟨hspace, htarget⟩, hcue⟩
    exact ⟨htarget, hcue, hspace⟩
  · rintro ⟨htarget, hcue, hspace⟩
    exact ⟨⟨hspace, htarget⟩, hcue⟩

end Matching

open Matching

variable {mode : MatchMode} {target : Target} {content : Text}

/-- In path mode a match shows a comment if, and only if, some line names the
    target, looks like an import and starts with the mark of a comment when it is
    trimmed, but has white space other than blanks and tabulators before it. -/
theorem comment_reported_iff (hmode : mode ≠ .word) (path : Text) :
    (∃ m ∈ (scan mode target path content).hits, commentMark <+: m.content) ↔
      ∃ line ∈ Text.lines content, commentMark <+: Text.trim line ∧
        hasTarget mode target.name line = true ∧ hasImportCue line = true ∧
        0 < Text.leadingSpace (afterIndent line) := by
  have hshown : (∃ m ∈ (scan mode target path content).hits, commentMark <+: m.content) ↔
      ∃ shown ∈ (scan mode target path content).hits.map (·.content), commentMark <+: shown := by
    simp
  rw [hshown, map_content_hits_scan]
  constructor
  · rintro ⟨_, hshown, hmark⟩
    obtain ⟨line, hline, rfl⟩ := List.mem_map.1 hshown
    obtain ⟨hline, href⟩ := List.mem_filter.1 hline
    exact ⟨line, hline, hmark, (isReference_comment_iff hmode hmark).1 href⟩
  · rintro ⟨line, hline, hmark, hhidden⟩
    have href := (isReference_comment_iff hmode hmark).2 hhidden
    exact ⟨_, List.mem_map_of_mem (List.mem_filter.2 ⟨hline, href⟩), hmark⟩

/-- A comment behind a no-break space. -/
def hiddenComment : Text := [0xC2, 0xA0] ++ text "// import u from './u'"

/-- A comment is reported in path mode. -/
theorem hiddenComment_reported :
    (scan .path ⟨text "u", []⟩ [] hiddenComment).hits.map (·.content) =
      [text "// import u from './u'"] := by
  decide +kernel

theorem comment_reported_iff_sample :
    (∃ m ∈ (scan .path ⟨text "u", []⟩ [] hiddenComment).hits, commentMark <+: m.content) ∧
    ¬ ∃ m ∈ (scan .path ⟨text "u", []⟩ [] (text "\t // import u from './u'")).hits,
      commentMark <+: m.content := by
  have hmode : MatchMode.path ≠ .word := by decide
  rw [comment_reported_iff hmode, comment_reported_iff hmode]
  decide +kernel

end ImportFinder
