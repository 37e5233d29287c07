import ImportFinder.Proofs.Matching.Occurrence
import ImportFinder.Proofs.Text.Enclosed

/-!
# Occurrences and trimming

A line is looked at as it stands in its file and shown without the white space
around it. Trimming takes away bytes of white space characters only, each of them
an ASCII blank or control or a byte beyond ASCII. A token whose two ends are none
of these (`HasSolidEnds`) is not cut (`exists_within`). What stands next to it may
be taken away; but the end of a text is as good a boundary as any, except that a
segment needs its separator, which is no white space either (`accepts_inner`). So
the token still occurs in what is left (`occurs_trim`).
-/

namespace ImportFinder.Matching

variable {boundary : Boundary} {token t : Text} {b : UInt8}

/-- Neither end of a text is white space or a byte beyond ASCII. -/
def HasSolidEnds (t : Text) : Prop :=
  ∀ b, b ∈ t.head? ∨ b ∈ t.getLast? → b < 0x80 ∧ Text.isAsciiSpace b = false

theorem HasSolidEnds.isSpaceByte (h : HasSolidEnds t) (hb : b ∈ t.head? ∨ b ∈ t.getLast?) :
    Text.isSpaceByte b = false := by
  obtain ⟨hascii, hspace⟩ := h b hb
  rw [Text.isSpaceByte, hspace, Bool.false_or, decide_eq_false_iff_not]
  exact UInt8.not_le.2 hascii

theorem isSeparator_of_isSpaceByte (h : Text.isSpaceByte b = true) : isSeparator b = false := by
  rw [← Bool.not_eq_true, isSeparator, Bool.or_eq_true, beq_iff_eq, beq_iff_eq]
  rintro (rfl | rfl) <;> exact absurd h (by decide)

/-! ### What is left of a text -/

/-- A byte that does not lie in the front of a text lies behind it. -/
theorem exists_behind {outer rest front more : Text} (h : outer ++ rest = front ++ b :: more)
    (hb : b ∉ outer) : ∃ front', front = outer ++ front' := by
  rcases List.append_eq_append_iff.1 h with ⟨front', hfront, _⟩ | ⟨piece, rfl, hpiece⟩
  · exact ⟨front', hfront⟩
  · -- What the front has beyond the byte's place starts with the byte.
    cases piece with
    | nil => exact ⟨[], by simp⟩
    | cons c piece =>
      obtain ⟨rfl, -⟩ := List.cons.inj hpiece
      exact absurd (List.mem_append_right _ List.mem_cons_self) hb

/-- A byte that does not lie in the back of a text lies before it. -/
theorem exists_before {rest outer front back : Text} (h : rest ++ outer = front ++ b :: back)
    (hb : b ∉ outer) : ∃ back', back = back' ++ outer := by
  rcases List.append_eq_append_iff.1 h with ⟨piece, -, rfl⟩ | ⟨piece, -, hpiece⟩
  · exact absurd (List.mem_append_right _ List.mem_cons_self) hb
  · cases piece with
    | nil =>
      rw [List.nil_append] at hpiece
      exact absurd (hpiece ▸ List.mem_cons_self) hb
    | cons c piece => exact ⟨piece, (List.cons.inj hpiece).2⟩

/-- A token whose ends are no white space lies within what is left of a text
    without white space at its two ends. -/
theorem exists_within (hne : token ≠ []) (hends : HasSolidEnds token)
    {outer core outer' front back : Text} (houter : ∀ b ∈ outer, Text.isSpaceByte b = true)
    (houter' : ∀ b ∈ outer', Text.isSpaceByte b = true)
    (h : outer ++ (core ++ outer') = front ++ (token ++ back)) :
    ∃ front' back', core = front' ++ (token ++ back') ∧ front = outer ++ front' ∧
      back = back' ++ outer' := by
  have hnot {edge : Text} (hedge : ∀ b ∈ edge, Text.isSpaceByte b = true) {b : UInt8}
      (hb : b ∈ token.head? ∨ b ∈ token.getLast?) : b ∉ edge := fun hmem => by
    have hspace := hedge b hmem
    rw [hends.isSpaceByte hb] at hspace
    exact Bool.false_ne_true hspace
  -- The first byte of the token lies behind the front, and its last one before the back.
  obtain ⟨first, more, hfirst⟩ := List.exists_cons_of_ne_nil hne
  have hfront : outer ++ (core ++ outer') = front ++ first :: (more ++ back) := by
    rw [h, hfirst, List.cons_append]
  obtain ⟨front', rfl⟩ := exists_behind hfront (hnot houter (.inl (by rw [hfirst]; rfl)))
  rw [List.append_assoc, List.append_cancel_left_eq] at h
  obtain ⟨before, last, hlast⟩ := (List.eq_nil_or_concat token).resolve_left hne
  have hback : core ++ outer' = (front' ++ before) ++ last :: back := by
    rw [h, hlast]
    simp
  obtain ⟨back', rfl⟩ := exists_before hback (hnot houter' (.inr (by simp [hlast])))
  refine ⟨front', back', ?_, rfl, rfl⟩
  rwa [← List.append_assoc, ← List.append_assoc, List.append_cancel_right_eq,
    List.append_assoc] at h

/-- Next to a token, bytes that are no separators may be taken away. -/
theorem accepts_inner {before after outer outer' : Option UInt8}
    (houter : ∀ b ∈ outer, isSeparator b = false)
    (h : boundary.accepts (before.or outer) (after.or outer') = true) :
    boundary.accepts before after = true := by
  have hafter (hword : (after.or outer').any isWordByte = false) :
      after.any isWordByte = false := by
    cases after with
    | none => rfl
    | some b => exact hword
  cases boundary with
  | word =>
    simp only [Boundary.accepts, Bool.and_eq_true, Bool.not_eq_true'] at h ⊢
    refine ⟨?_, hafter h.2⟩
    cases before with
    | none => rfl
    | some b => exact h.1
  | segment =>
    simp only [Boundary.accepts, Bool.and_eq_true, Bool.not_eq_true'] at h ⊢
    refine ⟨?_, hafter h.2⟩
    cases before with
    | none =>
      -- The separator is not among the bytes that are taken away.
      obtain ⟨b, hb, hseparator⟩ := (Option.any_eq_true _ _).1 h.1
      rw [houter b hb] at hseparator
      exact absurd hseparator Bool.false_ne_true
    | some b => exact h.1

/-- A token whose ends are no white space still occurs after trimming. -/
theorem occurs_trim (hends : HasSolidEnds token) (h : occurs boundary token t = true) :
    occurs boundary token (Text.trim t) = true := by
  obtain ⟨hne, front, back, hsplit, haccepts⟩ := occurs_iff.1 h
  obtain ⟨outer, outer', htrim, houter, houter'⟩ := Text.exists_around_trim t
  obtain ⟨front', back', hcore, rfl, rfl⟩ :=
    exists_within hne hends houter houter' (htrim.symm.trans hsplit)
  rw [List.getLast?_append, List.head?_append] at haccepts
  refine occurs_iff.2 ⟨hne, front', back', hcore, accepts_inner (fun b hb => ?_) haccepts⟩
  exact isSeparator_of_isSpaceByte (houter b (List.mem_of_getLast? hb))

end ImportFinder.Matching
