import ImportFinder.Text.Basic
import Mathlib.Data.List.TakeDrop

/-!
# Pieces of a text

A text and its pieces between the occurrences of a byte determine each other:

* `split_append`: a separator between two texts divides their pieces;
* `split_joinWith`: pieces without the separator are got back after joining;
* `exists_of_mem_split`: a piece lies in the text between separators, or at one
  of its ends;
* `splitLast_eq_some_iff`: the last separator is the one that none follows;
* `prefix_append_iff`: what a text starts with is seen before a separator.
-/

namespace ImportFinder.Text

variable {sep : UInt8}

@[simp]
theorem split_nil : split sep [] = [[]] := rfl

theorem split_cons_self (t : Text) : split sep (sep :: t) = [] :: split sep t := by
  simp [split]

theorem split_ne_nil (sep : UInt8) (t : Text) : split sep t ≠ [] := by
  cases t with
  | nil => simp
  | cons b t =>
    rw [split, List.foldr_cons]
    split
    · simp
    · split <;> simp

/-- A byte other than the separator goes to the front of the first piece. -/
theorem split_cons_of_ne {b : UInt8} (hb : b ≠ sep) {t piece : Text} {more : List Text}
    (ht : split sep t = piece :: more) : split sep (b :: t) = (b :: piece) :: more := by
  rw [split] at ht
  rw [split, List.foldr_cons, if_neg hb, ht]

/-- Bytes other than the separator go to the front of the first piece. -/
theorem split_append_of_not_mem {s : Text} (hs : sep ∉ s) {t piece : Text} {more : List Text}
    (ht : split sep t = piece :: more) : split sep (s ++ t) = (s ++ piece) :: more := by
  induction s with
  | nil => exact ht
  | cons b s ih =>
    rw [List.mem_cons, not_or] at hs
    exact split_cons_of_ne (Ne.symm hs.1) (ih hs.2)

/-- A separator between two texts divides their pieces. -/
theorem split_append (s t : Text) :
    split sep (s ++ sep :: t) = split sep s ++ split sep t := by
  induction s with
  | nil => exact split_cons_self t
  | cons b s ih =>
    by_cases hb : b = sep
    · rw [hb, List.cons_append, split_cons_self, split_cons_self, ih, List.cons_append]
    · -- The byte goes to the first piece of `s`, with or without what follows.
      obtain ⟨piece, more, hs⟩ := List.exists_cons_of_ne_nil (split_ne_nil sep s)
      rw [hs, List.cons_append] at ih
      rw [List.cons_append, split_cons_of_ne hb ih, split_cons_of_ne hb hs, List.cons_append]

theorem split_of_not_mem {t : Text} (ht : sep ∉ t) : split sep t = [t] := by
  induction t with
  | nil => rfl
  | cons b t ih =>
    rw [List.mem_cons, not_or] at ht
    exact split_cons_of_ne (Ne.symm ht.1) (ih ht.2)

/-- No piece holds the separator. -/
theorem not_mem_of_mem_split {t piece : Text} (h : piece ∈ split sep t) : sep ∉ piece := by
  induction t generalizing piece with
  | nil => simp_all
  | cons b t ih =>
    by_cases hb : b = sep
    · rw [hb, split_cons_self, List.mem_cons] at h
      rcases h with rfl | h
      · exact List.not_mem_nil
      · exact ih h
    · obtain ⟨first, more, ht⟩ := List.exists_cons_of_ne_nil (split_ne_nil sep t)
      rw [split_cons_of_ne hb ht, List.mem_cons] at h
      rcases h with rfl | h
      · rw [List.mem_cons, not_or]
        exact ⟨Ne.symm hb, ih (ht ▸ List.mem_cons_self)⟩
      · exact ih (ht ▸ List.mem_cons_of_mem _ h)

theorem joinWith_cons {s first : Text} {more : List Text} (hmore : more ≠ []) :
    joinWith s (first :: more) = first ++ (s ++ joinWith s more) := by
  obtain ⟨second, rest, rfl⟩ := List.exists_cons_of_ne_nil hmore
  simp [joinWith]

theorem joinWith_concat {s last : Text} {before : List Text} (hbefore : before ≠ []) :
    joinWith s (before ++ [last]) = joinWith s before ++ (s ++ last) := by
  obtain ⟨first, more, rfl⟩ := List.exists_cons_of_ne_nil hbefore
  simp [joinWith]

/-- Pieces without the separator are got back after they have been joined. -/
theorem split_joinWith {pieces : List Text} (hne : pieces ≠ []) (h : ∀ p ∈ pieces, sep ∉ p) :
    split sep (joinWith [sep] pieces) = pieces := by
  induction pieces with
  | nil => exact absurd rfl hne
  | cons first more ih =>
    have hfirst := split_of_not_mem (h first List.mem_cons_self)
    by_cases hmore : more = []
    · simpa [hmore, joinWith] using hfirst
    · rw [joinWith_cons hmore, List.singleton_append, split_append, hfirst,
        ih hmore fun p hp => h p (List.mem_cons_of_mem _ hp), List.singleton_append]

/-- Joining the pieces of a text gives the text back. -/
theorem joinWith_split (sep : UInt8) (t : Text) : joinWith [sep] (split sep t) = t := by
  induction t with
  | nil => rfl
  | cons b t ih =>
    by_cases hb : b = sep
    · rw [hb, split_cons_self, joinWith_cons (split_ne_nil sep t), ih]
      rfl
    · obtain ⟨first, more, ht⟩ := List.exists_cons_of_ne_nil (split_ne_nil sep t)
      rw [ht] at ih
      rw [split_cons_of_ne hb ht, ← ih]
      rfl

theorem exists_of_mem_joinWith {pieces : List Text} {piece : Text} (h : piece ∈ pieces) :
    ∃ front back, joinWith [sep] pieces = front ++ (piece ++ back) ∧
      (front = [] ∨ front.getLast? = some sep) ∧ (back = [] ∨ back.head? = some sep) := by
  induction pieces with
  | nil => exact absurd h List.not_mem_nil
  | cons first more ih =>
    rcases List.mem_cons.1 h with rfl | h
    · -- The first piece is at the front, and a separator follows unless it is the last.
      refine ⟨[], more.flatMap ([sep] ++ ·), rfl, .inl rfl, ?_⟩
      cases more <;> simp
    · obtain ⟨front, back, hjoin, hfront, hback⟩ := ih h
      refine ⟨first ++ sep :: front, back, ?_, .inr ?_, hback⟩
      · rw [joinWith_cons (List.ne_nil_of_mem h), hjoin]
        simp
      · rcases hfront with rfl | hfront
        · simp
        · simp [List.getLast?_append, List.getLast?_cons, hfront]

/-- A piece of a text lies between two separators or ends of the text. -/
theorem exists_of_mem_split {t piece : Text} (h : piece ∈ split sep t) :
    ∃ front back, t = front ++ (piece ++ back) ∧ (front = [] ∨ front.getLast? = some sep) ∧
      (back = [] ∨ back.head? = some sep) := by
  rw [← joinWith_split sep t]
  exact exists_of_mem_joinWith h

/-- Backwards, a text without the separator is passed up to its first byte. -/
theorem span_reverse_append {t : Text} (ht : sep ∉ t) (s : Text) :
    (s.reverse ++ t).reverse.span (· ≠ sep) =
      (t.reverse ++ s.takeWhile (· ≠ sep), s.dropWhile (· ≠ sep)) := by
  have hpass : ∀ b ∈ t.reverse, decide (b ≠ sep) = true := fun b hb =>
    decide_eq_true fun h => ht (h ▸ List.mem_reverse.1 hb)
  rw [List.reverse_append, List.reverse_reverse, List.span_eq_takeWhile_dropWhile,
    List.takeWhile_append_of_pos hpass, List.dropWhile_append_of_pos hpass]

theorem splitLast_of_not_mem {t : Text} (ht : sep ∉ t) : splitLast sep t = none := by
  have hspan := span_reverse_append ht []
  rw [List.reverse_nil, List.nil_append] at hspan
  rw [splitLast, hspan]
  rfl

/-- The last separator is the one that no other follows. -/
theorem splitLast_append {t : Text} (ht : sep ∉ t) (s : Text) :
    splitLast sep (s ++ sep :: t) = some (s, t) := by
  have hspan := span_reverse_append ht (sep :: s.reverse)
  rw [List.reverse_cons, List.reverse_reverse, List.append_assoc, List.singleton_append] at hspan
  rw [splitLast, hspan]
  simp

/-- In a text with a separator there is a last one. -/
theorem exists_append_of_mem {t : Text} (ht : sep ∈ t) :
    ∃ before after, t = before ++ sep :: after ∧ sep ∉ after := by
  obtain ⟨after, before, hsplit, hnone⟩ := List.eq_append_cons_of_mem (List.mem_reverse.2 ht)
  refine ⟨before.reverse, after.reverse, ?_, by rwa [List.mem_reverse]⟩
  rw [← List.reverse_reverse t, hsplit]
  simp

theorem splitLast_eq_none_iff {t : Text} : splitLast sep t = none ↔ sep ∉ t := by
  refine ⟨fun h ht => ?_, splitLast_of_not_mem⟩
  obtain ⟨before, after, rfl, hafter⟩ := exists_append_of_mem ht
  rw [splitLast_append hafter] at h
  exact Option.some_ne_none _ h

/-- A text is divided at a separator that no other follows. -/
theorem splitLast_eq_some_iff {t before after : Text} :
    splitLast sep t = some (before, after) ↔ t = before ++ sep :: after ∧ sep ∉ after := by
  constructor
  · intro h
    have ht : sep ∈ t := by
      by_contra ht
      rw [splitLast_of_not_mem ht] at h
      exact Option.some_ne_none _ h.symm
    obtain ⟨before', after', rfl, hafter⟩ := exists_append_of_mem ht
    rw [splitLast_append hafter] at h
    obtain ⟨rfl, rfl⟩ := Prod.mk.inj (Option.some.inj h)
    exact ⟨rfl, hafter⟩
  · rintro ⟨rfl, hafter⟩
    exact splitLast_append hafter before

/-- A mark does not reach over a byte that it does not hold. -/
theorem prefix_append_iff {mark : Text} (hmark : sep ∉ mark) {s t : Text} :
    mark <+: s ++ sep :: t ↔ mark <+: s := by
  refine ⟨fun h => ?_, fun h => h.trans (List.prefix_append _ _)⟩
  rcases List.prefix_or_prefix_of_prefix h (List.prefix_append s _) with hs | ⟨more, rfl⟩
  · exact hs
  · -- What the mark has beyond `s` starts with the byte, unless it is empty.
    rw [List.prefix_append_right_inj] at h
    cases more with
    | nil => exact ⟨[], by simp⟩
    | cons b more =>
      rw [List.cons_prefix_cons] at h
      exact absurd (h.1 ▸ List.mem_append_right _ List.mem_cons_self) hmark

end ImportFinder.Text
