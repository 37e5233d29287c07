import ImportFinder.Matching.Line
import ImportFinder.Proofs.Text.Split

/-!
# When a token occurs

The search for a token goes from left to right, but whether it finds anything
does not depend on the way: a token occurs in a text exactly if the text is
divided into something before it, the token and something after it, where the
bytes next to the token are accepted (`occurs_iff`).

A line lies between line feeds or ends of its text, and a line feed is as good
a boundary as an end. So what occurs on a line occurs in the whole text
(`occurs_of_mem_lines`), and a text without the target has no line that
references it (`hasTarget_of_isReference`).
-/

namespace ImportFinder.Matching

variable {boundary : Boundary} {token : Text}

/-- A token stands in a text somewhere with bytes next to it that are accepted;
    `before` is the byte in front of the text. -/
def Stands (boundary : Boundary) (token : Text) (before : Option UInt8) (t : Text) : Prop :=
  ∃ front back, t = front ++ (token ++ back) ∧
    boundary.accepts (front.getLast?.or before) back.head? = true

theorem getLast?_cons_or {b : UInt8} {front : Text} {before : Option UInt8} :
    (b :: front).getLast?.or before = front.getLast?.or (some b) := by
  rw [List.getLast?_cons]
  cases front.getLast? <;> rfl

/-- A token stands at the front of a text or in the rest of it. -/
theorem stands_cons_iff {before : Option UInt8} {b : UInt8} {rest : Text} :
    Stands boundary token before (b :: rest) ↔
      (token.isPrefixOf (b :: rest) &&
        boundary.accepts before ((b :: rest).drop token.length).head?) = true ∨
      Stands boundary token (some b) rest := by
  rw [Bool.and_eq_true, List.isPrefixOf_iff_prefix]
  constructor
  · rintro ⟨front, back, hsplit, haccepts⟩
    -- The token is at the front, or the first byte lies before it.
    cases front with
    | nil =>
      left
      rw [hsplit, List.nil_append, List.drop_left]
      exact ⟨List.prefix_append _ _, haccepts⟩
    | cons c front =>
      rw [List.cons_append, List.cons.injEq] at hsplit
      obtain ⟨rfl, hsplit⟩ := hsplit
      rw [getLast?_cons_or] at haccepts
      exact .inr ⟨front, back, hsplit, haccepts⟩
  · rintro (⟨⟨back, hback⟩, haccepts⟩ | ⟨front, back, hsplit, haccepts⟩)
    · rw [← hback, List.drop_left] at haccepts
      exact ⟨[], back, hback.symm, haccepts⟩
    · rw [← getLast?_cons_or] at haccepts
      exact ⟨b :: front, back, by rw [hsplit]; rfl, haccepts⟩

/-- The search from some offset on finds something exactly if the token stands
    there. -/
theorem occurrencesFrom_ne_nil_iff (htoken : token ≠ []) {before : Option UInt8} {offset : Nat}
    {t : Text} :
    occurrencesFrom boundary token 0 before offset t ≠ [] ↔ Stands boundary token before t := by
  induction t generalizing before offset with
  | nil =>
    -- Only the empty token would stand in the empty text.
    refine ⟨fun h => absurd rfl h, ?_⟩
    rintro ⟨front, back, hsplit, _⟩
    simp_all
  | cons b rest ih =>
    rw [stands_cons_iff, occurrencesFrom]
    by_cases hfound : (token.isPrefixOf (b :: rest) &&
        boundary.accepts before ((b :: rest).drop token.length).head?) = true
    · rw [if_pos hfound]
      exact ⟨fun _ => .inl hfound, fun _ => List.cons_ne_nil _ _⟩
    · rw [if_neg hfound, ih]
      exact ⟨.inr, fun h => h.resolve_left hfound⟩

/-- A token occurs in a text exactly if it stands there somewhere. -/
theorem occurs_iff {t : Text} :
    occurs boundary token t = true ↔ token ≠ [] ∧ ∃ front back, t = front ++ (token ++ back) ∧
      boundary.accepts front.getLast? back.head? = true := by
  by_cases htoken : token = []
  · simp [occurs, occurrences, htoken]
  · have hstands : occurrencesFrom boundary token 0 none 0 t ≠ [] ↔ Stands boundary token none t :=
      occurrencesFrom_ne_nil_iff htoken
    simpa [occurs, occurrences, htoken, Stands] using hstands

/-! ### Lines -/

/-- A line feed next to a line is no word byte. -/
theorem any_isWordByte_or {near far : Option UInt8} (hnear : near.any isWordByte = false)
    (hfar : far = none ∨ far = some Text.newline) : (near.or far).any isWordByte = false := by
  cases near with
  | none => rcases hfar with rfl | rfl <;> decide
  | some b => exact hnear

/-- Line feeds are boundaries as good as the ends of a line. -/
theorem accepts_or {before after outer outer' : Option UInt8}
    (hbefore : outer = none ∨ outer = some Text.newline)
    (hafter : outer' = none ∨ outer' = some Text.newline)
    (h : boundary.accepts before after = true) :
    boundary.accepts (before.or outer) (after.or outer') = true := by
  cases boundary with
  | word =>
    simp only [Boundary.accepts, Bool.and_eq_true, Bool.not_eq_true'] at h ⊢
    exact ⟨any_isWordByte_or h.1 hbefore, any_isWordByte_or h.2 hafter⟩
  | segment =>
    simp only [Boundary.accepts, Bool.and_eq_true, Bool.not_eq_true'] at h ⊢
    -- A segment follows a separator, so there is a byte before it on its line.
    obtain ⟨b, rfl⟩ : ∃ b, before = some b := by
      cases before with
      | none => simp at h
      | some b => exact ⟨b, rfl⟩
    exact ⟨h.1, any_isWordByte_or h.2 hafter⟩

/-- What occurs on a line occurs in the whole text. -/
theorem occurs_of_mem_lines {t line : Text} (hline : line ∈ Text.lines t)
    (h : occurs boundary token line = true) : occurs boundary token t = true := by
  obtain ⟨outer, outer', rfl, hfront, hback⟩ := Text.exists_of_mem_split hline
  obtain ⟨htoken, front, back, rfl, haccepts⟩ := occurs_iff.1 h
  refine occurs_iff.2 ⟨htoken, outer ++ front, back ++ outer', by simp, ?_⟩
  rw [List.getLast?_append, List.head?_append]
  refine accepts_or ?_ ?_ haccepts
  · exact hfront.imp (fun h => by simp [h]) id
  · exact hback.imp (fun h => by simp [h]) id

/-- A line that references the target holds it. -/
theorem hasTarget_line_of_isReference {mode : MatchMode} {name line : Text}
    (h : isReference mode name line = true) : hasTarget mode name line = true := by
  rw [isReference] at h
  rw [hasTarget, boundary]
  split_ifs at h ⊢ with hmode
  · rw [Bool.and_eq_true] at h
    exact h.1
  · rw [Bool.and_eq_true, Bool.and_eq_true] at h
    exact h.1.2

/-- A text with a line that references the target holds it too. -/
theorem hasTarget_of_isReference {mode : MatchMode} {name content line : Text}
    (hline : line ∈ Text.lines content) (h : isReference mode name line = true) :
    hasTarget mode name content = true :=
  occurs_of_mem_lines hline (hasTarget_line_of_isReference h)

end ImportFinder.Matching
