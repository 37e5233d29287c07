import ImportFinder.Proofs.Matching.Sweep
import ImportFinder.Proofs.Matching.Trim
import ImportFinder.Proofs.Scan
import ImportFinder.Report.Plain

/-!
# Highlighting

A match is shown with the name of the target highlighted. That changes nothing
else: the name is found between *gaps*, and the line as it is shown consists of
the same gaps with the highlighted name between them (`Highlighted`). The cuts are
made at the spans of a sweep, which lie within the line, in order and without
overlaps, so that there is a gap before the first span, between any two spans and
behind the last one (`exists_gaps`).

The line that is shown is not the one on which the target was found, as it lacks
the white space around it. If the name has no white space at its own ends, it is
still found there, so that every match of a scan has something to highlight
(`targetSpans_ne_nil`).
-/

namespace ImportFinder

namespace Matching

variable {boundary : Boundary} {token t : Text} {spans : List Span} {i : Nat}

/-- The spans of pieces of one length that lie between gaps, in a text that starts
    at `offset`. -/
def spansBetween (length : Nat) : (offset : Nat) → (gaps : List Text) → List Span
  | offset, gap :: next :: more =>
    ⟨offset + gap.length, offset + gap.length + length⟩ ::
      spansBetween length (offset + gap.length + length) (next :: more)
  | _, _ => []

theorem spansBetween_cons {length offset : Nat} {gap : Text} {gaps : List Text} (h : gaps ≠ []) :
    spansBetween length offset (gap :: gaps) =
      ⟨offset + gap.length, offset + gap.length + length⟩ ::
        spansBetween length (offset + gap.length + length) gaps := by
  obtain ⟨next, more, rfl⟩ := List.exists_cons_of_ne_nil h
  rfl

/-- There is one more gap than there are spans between them. -/
theorem length_spansBetween {length offset : Nat} {gaps : List Text} (h : gaps ≠ []) :
    gaps.length = (spansBetween length offset gaps).length + 1 := by
  induction gaps generalizing offset with
  | nil => exact absurd rfl h
  | cons gap gaps ih =>
    by_cases hgaps : gaps = []
    · subst hgaps
      rfl
    · rw [spansBetween_cons hgaps, List.length_cons, List.length_cons, ih hgaps]

/-- What a sweep takes lies between gaps. -/
theorem Sweep.exists_gaps (h : Sweep (StandsAt boundary token t) token.length i spans)
    {front rest : Text} (ht : t = front ++ rest) (hi : front.length = i) :
    ∃ gaps, gaps ≠ [] ∧ rest = Text.joinWith token gaps ∧
      spans = spansBetween token.length i gaps := by
  induction h generalizing front rest with
  | done => exact ⟨[rest], List.cons_ne_nil _ _, by simp [Text.joinWith], rfl⟩
  | @take i j spans hle _ hstands _ ih =>
    obtain ⟨front', back, hsplit, rfl, _⟩ := hstands
    -- The first gap is what lies between the front and the first span.
    obtain ⟨gap, rfl⟩ : front <+: front' := by
      refine List.prefix_of_prefix_length_le ⟨rest, ht.symm⟩ ⟨token ++ back, hsplit.symm⟩ ?_
      rw [hi]
      exact hle
    have hrest : rest = gap ++ (token ++ back) := by
      rw [ht, List.append_assoc, List.append_cancel_left_eq] at hsplit
      exact hsplit
    have hbehind : t = (front ++ gap ++ token) ++ back := by
      rw [hsplit, List.append_assoc (front ++ gap)]
    obtain ⟨gaps, hne, hback, hspans⟩ := ih hbehind (by rw [List.length_append])
    refine ⟨gap :: gaps, List.cons_ne_nil _ _, ?_, ?_⟩
    · rw [Text.joinWith_cons hne, ← hback, hrest]
    · rw [spansBetween_cons hne, hspans, List.length_append, hi]

/-- The occurrences of a token lie between gaps. -/
theorem exists_gaps (boundary : Boundary) (token t : Text) : ∃ gaps, gaps ≠ [] ∧
    t = Text.joinWith token gaps ∧
    occurrences boundary token t = spansBetween token.length 0 gaps := by
  by_cases htoken : token = []
  · subst htoken
    exact ⟨[t], List.cons_ne_nil _ _, by simp [Text.joinWith], rfl⟩
  · have ht : t = [] ++ t := rfl
    exact (sweep_occurrences htoken).exists_gaps ht rfl

/-- An occurrence is a piece of the text that is equal to the token. -/
theorem slice_of_mem_occurrences {s : Span} (hs : s ∈ occurrences boundary token t) :
    s.start ≤ s.stop ∧ s.stop ≤ t.length ∧
      (t.drop s.start).take (s.stop - s.start) = token := by
  have htoken : token ≠ [] := by
    rintro rfl
    exact absurd hs List.not_mem_nil
  obtain ⟨-, hstands, hstop⟩ := (sweep_occurrences htoken).mem hs
  have hle := hstands.le_length
  obtain ⟨front, back, rfl, hstart, _⟩ := hstands
  refine ⟨by omega, by omega, ?_⟩
  rw [hstop, Nat.add_sub_cancel_left, ← hstart, List.drop_left, List.take_left]

/-- One occurrence ends before the next one starts. -/
theorem pairwise_occurrences (boundary : Boundary) (token t : Text) :
    (occurrences boundary token t).Pairwise fun a b => a.stop ≤ b.start := by
  by_cases htoken : token = []
  · subst htoken
    exact List.Pairwise.nil
  · exact ((sweep_occurrences htoken).pairwise (List.length_pos_iff.2 htoken)).imp And.right

end Matching

namespace Report

open Matching

variable {show_ : Text → Text} {mode : MatchMode} {target : Target}
  {name path content file : Text} {gaps : List Text}

/-- Marking goes on behind the first gap and the piece that follows it. -/
theorem markSpans_cons {offset : Nat} {gap piece rest : Text} {spans : List Span} :
    markSpans show_ offset (⟨offset + gap.length, offset + gap.length + piece.length⟩ :: spans)
        (gap ++ (piece ++ rest)) =
      gap ++ (show_ piece ++ markSpans show_ (offset + gap.length + piece.length) spans rest) := by
  have hstart : offset + gap.length - offset = gap.length := Nat.add_sub_cancel_left ..
  have hlength : offset + gap.length + piece.length - (offset + gap.length) = piece.length :=
    Nat.add_sub_cancel_left ..
  have hstop : offset + gap.length + piece.length - offset = (gap ++ piece).length := by
    rw [List.length_append]
    omega
  rw [markSpans]
  simp only [hstart, hlength, hstop]
  rw [List.take_left, List.drop_left, List.take_left, ← List.append_assoc gap piece,
    List.drop_left, List.append_assoc]

/-- Marking the pieces between gaps leaves the gaps as they are. -/
theorem markSpans_joinWith {offset : Nat} {piece : Text} (h : gaps ≠ []) :
    markSpans show_ offset (spansBetween piece.length offset gaps) (Text.joinWith piece gaps) =
      Text.joinWith (show_ piece) gaps := by
  induction gaps generalizing offset with
  | nil => exact absurd rfl h
  | cons gap gaps ih =>
    by_cases hgaps : gaps = []
    · subst hgaps
      simp [spansBetween, markSpans, Text.joinWith]
    · rw [spansBetween_cons hgaps, Text.joinWith_cons hgaps, Text.joinWith_cons hgaps,
        markSpans_cons, ih hgaps]

/-- How a content is highlighted: the name of the target is found between the gaps
    and nowhere else, and is shown between the same gaps. -/
structure Highlighted (mode : MatchMode) (name content : Text) (gaps : List Text) : Prop where
  ne_nil : gaps ≠ []
  content_eq : content = Text.joinWith name gaps
  spans_eq : targetSpans mode name content = spansBetween name.length 0 gaps
  shown_eq (show_ : Text → Text) :
    highlight show_ mode name content = Text.joinWith (show_ name) gaps

/-- There is one more gap than there are names to highlight. -/
theorem Highlighted.length_eq (h : Highlighted mode name content gaps) :
    gaps.length = (targetSpans mode name content).length + 1 := by
  rw [h.spans_eq]
  exact length_spansBetween h.ne_nil

theorem exists_highlighted (mode : MatchMode) (name content : Text) :
    ∃ gaps, Highlighted mode name content gaps := by
  obtain ⟨gaps, hne, hcontent, hspans⟩ := exists_gaps (boundary mode) name content
  refine ⟨gaps, hne, hcontent, hspans, fun show_ => ?_⟩
  rw [highlight, targetSpans, hspans, hcontent]
  exact markSpans_joinWith hne

/-- Every match of a scan has the name of the target in it. -/
theorem targetSpans_ne_nil (hends : HasSolidEnds target.name) {m : Match}
    (hm : m ∈ (scan mode target path file).hits) :
    targetSpans mode target.name m.content ≠ [] := by
  have hcontent := List.mem_map_of_mem (f := fun m : Match => m.content) hm
  rw [map_content_hits_scan, List.mem_map] at hcontent
  obtain ⟨line, hline, htrim⟩ := hcontent
  have href := (List.mem_filter.1 hline).2
  have hoccurs : occurs (boundary mode) target.name m.content = true := by
    rw [← htrim]
    exact occurs_trim hends (hasTarget_line_of_isReference href)
  rw [occurs, Bool.not_eq_true', List.isEmpty_eq_false_iff] at hoccurs
  exact hoccurs

/-- Highlighting cuts a content at the spans of the target: they lie within it, in
    order and without overlaps, and each is a piece equal to the name. What is
    shown is the content with these pieces, and nothing else, replaced by the
    name as it is shown; it is the content itself if the name is shown as it is.
    If no end of the name is white space or beyond ASCII, there is at least one
    such piece in every match of a scan. -/
theorem highlight_marks_target (mode : MatchMode) (name content : Text) :
    (∀ s ∈ targetSpans mode name content, s.start ≤ s.stop ∧ s.stop ≤ content.length ∧
      (content.drop s.start).take (s.stop - s.start) = name) ∧
    ((targetSpans mode name content).Pairwise fun a b => a.stop ≤ b.start) ∧
    (∃ gaps, Highlighted mode name content gaps ∧
      gaps.length = (targetSpans mode name content).length + 1) ∧
    (∀ show_, show_ name = name → highlight show_ mode name content = content) ∧
    (HasSolidEnds name → ∀ extension path file,
      ∀ m ∈ (scan mode { name, extension } path file).hits,
        ∃ gaps, Highlighted mode name m.content gaps ∧ 2 ≤ gaps.length) := by
  obtain ⟨gaps, hgaps⟩ := exists_highlighted mode name content
  refine ⟨fun s hs => slice_of_mem_occurrences hs, pairwise_occurrences _ _ _,
    ⟨gaps, hgaps, hgaps.length_eq⟩, fun show_ hshow => ?_, fun hends extension path file m hm => ?_⟩
  · rw [hgaps.shown_eq, hshow, ← hgaps.content_eq]
  · obtain ⟨gaps, hgaps⟩ := exists_highlighted mode name m.content
    have hpos := List.length_pos_iff.2 (targetSpans_ne_nil hends hm)
    refine ⟨gaps, hgaps, ?_⟩
    rw [hgaps.length_eq]
    exact Nat.succ_le_succ hpos

/-- A name that stands at the start of the match, behind white space on its line. -/
theorem highlight_marks_target_sample :
    (∃ m ∈ (scan .word ⟨text "u", []⟩ [] (text "\t u = require('./u')")).hits,
      m.content = text "u = require('./u')" ∧
      ∃ gaps, Highlighted .word (text "u") m.content gaps ∧ 2 ≤ gaps.length) ∧
    highlight id .word (text "u") (text "u = require('./u')") = text "u = require('./u')" := by
  have hends : HasSolidEnds (text "u") := by
    intro b hb
    obtain rfl : b = 0x75 := by
      rcases hb with hb | hb <;> exact (Option.some.inj hb).symm
    decide
  have hhits : (scan .word ⟨text "u", []⟩ [] (text "\t u = require('./u')")).hits =
      [{ line := 1, content := text "u = require('./u')" }] := by
    decide +kernel
  obtain ⟨_, _, _, hsame, hshown⟩ :=
    highlight_marks_target .word (text "u") (text "u = require('./u')")
  have hmem := hhits ▸ List.mem_singleton_self (α := Match) _
  exact ⟨⟨_, hmem, rfl, hshown hends [] [] _ _ hmem⟩, hsame id rfl⟩

/-- White space at the end of a name is lost with that at the end of its line. -/
example : (scan .path ⟨text "u ", []⟩ [] (text "import './u ")).hits.map
    (fun m => targetSpans .path (text "u ") m.content) = [[]] := by
  decide +kernel

end Report

end ImportFinder
