import ImportFinder.Proofs.Matching.Sweep

/-!
# Segments among the words

A path segment is a word that follows a separator: a separator is no word byte,
and behind the token both boundaries ask for the same (`standsAt_segment_iff`).
It is less clear that a search for segments finds those of the words that follow
a separator, since each of the two searches passes over what overlaps the
occurrences that it has found. A word that is found could reach over the start of
a segment. It would then hold the separator before that segment
(`StandsAt.le_of_followsSeparator`). So nothing is passed over if no separator lies
in the token, and a sweep over the segments is what is left of one over the words
(`Sweep.filter`).

With a separator in the token the searches may part, but there is still a word
where there is a segment (`occurs_word_of_segment`). That is all it takes for a
reference in path mode to be one in word mode, next to one of the words by which
an import is told there (`segment_refines_word`).
-/

namespace ImportFinder.Matching

variable {token t : Text}

/-- Whether the byte directly before a position of a text is a path separator. -/
def followsSeparator (t : Text) (i : Nat) : Bool := (t.take i).getLast?.any isSeparator

theorem followsSeparator_length (front rest : Text) :
    followsSeparator (front ++ rest) front.length = front.getLast?.any isSeparator := by
  rw [followsSeparator, List.take_left]

/-! ### Boundaries -/

theorem isWordByte_of_isSeparator {b : UInt8} (h : isSeparator b = true) :
    isWordByte b = false := by
  rw [isSeparator, Bool.or_eq_true, beq_iff_eq, beq_iff_eq] at h
  rcases h with rfl | rfl <;> decide

/-- The boundary of a segment is that of a word behind a separator. -/
theorem accepts_segment_iff {before after : Option UInt8} :
    Boundary.segment.accepts before after = true ↔
      Boundary.word.accepts before after = true ∧ before.any isSeparator = true := by
  simp only [Boundary.accepts, Bool.and_eq_true, Bool.not_eq_true']
  constructor
  · rintro ⟨hseparator, hafter⟩
    obtain ⟨b, rfl, hb⟩ := (Option.any_eq_true _ _).1 hseparator
    exact ⟨⟨isWordByte_of_isSeparator hb, hafter⟩, hseparator⟩
  · rintro ⟨⟨_, hafter⟩, hseparator⟩
    exact ⟨hseparator, hafter⟩

/-- A segment is a word that follows a separator. -/
theorem standsAt_segment_iff {i : Nat} : StandsAt .segment token t i ↔
    StandsAt .word token t i ∧ followsSeparator t i = true := by
  constructor
  · rintro ⟨front, back, rfl, rfl, haccepts⟩
    rw [accepts_segment_iff] at haccepts
    exact ⟨⟨front, back, rfl, rfl, haccepts.1⟩, by rw [followsSeparator_length]; exact haccepts.2⟩
  · rintro ⟨⟨front, back, rfl, rfl, haccepts⟩, hseparator⟩
    rw [followsSeparator_length] at hseparator
    exact ⟨front, back, rfl, rfl, accepts_segment_iff.2 ⟨haccepts, hseparator⟩⟩

/-- A token without separators does not reach over a position behind one. -/
theorem StandsAt.le_of_followsSeparator {boundary : Boundary} {j k : Nat}
    (h : StandsAt boundary token t j) (htoken : ∀ b ∈ token, isSeparator b = false)
    (hk : followsSeparator t k = true) (hjk : j < k) : j + token.length ≤ k := by
  obtain ⟨front, back, rfl, rfl, _⟩ := h
  by_contra hlt
  -- The byte before the position would be one of the token's.
  have htake : (front ++ (token ++ back)).take k = front ++ token.take (k - front.length) := by
    rw [List.take_append, List.take_of_length_le (Nat.le_of_lt hjk),
      List.take_append_of_le_length (by omega)]
  have hne : token.take (k - front.length) ≠ [] := by
    rw [ne_eq, List.take_eq_nil_iff, not_or]
    refine ⟨by omega, ?_⟩
    rintro rfl
    rw [List.length_nil] at hlt
    omega
  rw [followsSeparator, htake, List.getLast?_append_of_ne_nil _ hne] at hk
  obtain ⟨b, hb, hseparator⟩ := (Option.any_eq_true _ _).1 hk
  have hmem := List.mem_of_mem_take (List.mem_of_getLast? hb)
  rw [htoken b hmem] at hseparator
  exact Bool.false_ne_true hseparator

/-! ### Sweeps over fewer positions -/

namespace Sweep

variable {p : Nat → Prop} {length i : Nat} {spans : List Span}

/-- There is one sweep over given positions. -/
theorem unique {spans' : List Span} (h : Sweep p length i spans) (h' : Sweep p length i spans') :
    spans = spans' := by
  induction h generalizing spans' with
  | done hnone =>
    cases h' with
    | done => rfl
    | take hle _ hstands => exact absurd hstands (hnone _ hle)
  | take hle hfirst hstands _ ih =>
    cases h' with
    | done hnone => exact absurd hstands (hnone _ hle)
    | take hle' hfirst' hstands' hrest' =>
      -- Neither of the two first positions comes before the other.
      have hge := Nat.le_of_not_lt fun hlt => hfirst' _ hle hlt hstands
      have hge' := Nat.le_of_not_lt fun hlt => hfirst _ hle' hlt hstands'
      obtain rfl := Nat.le_antisymm hge' hge
      rw [ih hrest']

/-- If no position that is kept lies within the given length behind another one,
    a sweep over what is kept takes the spans that start there. -/
theorem filter {keep : Nat → Bool} (h : Sweep p length i spans)
    (hfree : ∀ j k, p j → keep k = true → j < k → j + length ≤ k) :
    Sweep (fun k => p k ∧ keep k = true) length i (spans.filter fun s => keep s.start) := by
  induction h with
  | done hnone => exact .done fun k hk hkept => hnone k hk hkept.1
  | @take i j spans hle hfirst hstands _ ih =>
    have hbefore : ∀ k, i ≤ k → k < j → ¬ (p k ∧ keep k = true) := fun k hk hkj hkept =>
      hfirst k hk hkj hkept.1
    cases hkeep : keep j with
    | true =>
      rw [List.filter_cons, if_pos hkeep]
      exact .take hle hbefore ⟨hstands, hkeep⟩ ih
    | false =>
      -- Nothing is kept up to the end of the span that is left out.
      rw [List.filter_cons, if_neg (Bool.eq_false_iff.1 hkeep)]
      refine ih.of_le (by omega) fun k hk hlt hkept => ?_
      rcases Nat.lt_trichotomy k j with hkj | rfl | hjk
      · exact hbefore k hk hkj hkept
      · rw [hkeep] at hkept
        exact Bool.false_ne_true hkept.2
      · exact Nat.not_le.2 hlt (hfree j k hstands hkept.2 hjk)

end Sweep

/-! ### The search for segments -/

/-- The segments that are found are the words that follow a separator, if the
    token has no separator in it. -/
theorem occurrences_segment (htoken : ∀ b ∈ token, isSeparator b = false) :
    occurrences .segment token t =
      (occurrences .word token t).filter fun s => followsSeparator t s.start := by
  by_cases hnil : token = []
  · subst hnil
    rfl
  · have hword : Sweep (StandsAt .word token t) token.length 0 (occurrences .word token t) :=
      sweep_occurrences hnil
    have hsegment : Sweep (StandsAt .segment token t) token.length 0
        (occurrences .segment token t) := sweep_occurrences hnil
    have hsame : StandsAt .segment token t =
        fun k => StandsAt .word token t k ∧ followsSeparator t k = true :=
      funext fun _ => propext standsAt_segment_iff
    rw [hsame] at hsegment
    exact hsegment.unique (hword.filter fun _ _ hj hk hjk =>
      hj.le_of_followsSeparator htoken hk hjk)

/-- Where a segment occurs, there is a word. -/
theorem occurs_word_of_segment (h : occurs .segment token t = true) :
    occurs .word token t = true := by
  obtain ⟨hne, front, back, hsplit, haccepts⟩ := occurs_iff.1 h
  exact occurs_iff.2 ⟨hne, front, back, hsplit, (accepts_segment_iff.1 haccepts).1⟩

/-- What holds a segment and a word that tells an import is a reference in word
    mode. -/
theorem isReference_word_of_segment (h : occurs .segment token t = true)
    (hcue : hasWord (text "import") t = true ∨ hasWord (text "require") t = true) :
    isReference .word token t = true := by
  have hmode : MatchMode.word.isWord = true := by decide
  rw [isReference, hmode, if_pos rfl, Bool.and_eq_true, Bool.or_eq_true]
  exact ⟨occurs_word_of_segment h, hcue⟩

/-- The segments found for a token without separators are the words found for it
    that directly follow a separator. For any token there is a word where there is
    a segment, so that a line which references the target in path mode does so in
    word mode too, if it has the word `import` or `require`. -/
theorem segment_refines_word (token t : Text) :
    ((∀ b ∈ token, isSeparator b = false) →
      occurrences .segment token t =
        (occurrences .word token t).filter fun s => followsSeparator t s.start) ∧
    (occurs .segment token t = true → occurs .word token t = true) ∧
    (isReference .path token t = true →
      hasWord (text "import") t = true ∨ hasWord (text "require") t = true →
      isReference .word token t = true) :=
  ⟨occurrences_segment, occurs_word_of_segment, fun href hcue =>
    isReference_word_of_segment (hasTarget_line_of_isReference href) hcue⟩

/-- The word `u-u` stands at both ends of the path `u-u-u/u-u`, and a segment only
    at the second one. -/
theorem segment_refines_word_sample :
    occurrences .word (text "u-u") (text "import 'u-u-u/u-u'") = [⟨8, 11⟩, ⟨14, 17⟩] ∧
    occurrences .segment (text "u-u") (text "import 'u-u-u/u-u'") = [⟨14, 17⟩] ∧
    isReference .word (text "u-u") (text "import 'u-u-u/u-u'") = true := by
  have htoken : ∀ b ∈ text "u-u", isSeparator b = false := by decide +kernel
  have hwords : occurrences .word (text "u-u") (text "import 'u-u-u/u-u'") =
      [⟨8, 11⟩, ⟨14, 17⟩] := by
    decide +kernel
  have hpath : isReference .path (text "u-u") (text "import 'u-u-u/u-u'") = true := by
    decide +kernel
  have hcue : hasWord (text "import") (text "import 'u-u-u/u-u'") = true := by decide +kernel
  obtain ⟨hfilter, _, href⟩ := segment_refines_word (text "u-u") (text "import 'u-u-u/u-u'")
  refine ⟨hwords, ?_, href hpath (.inl hcue)⟩
  rw [hfilter htoken, hwords]
  decide +kernel

/-- With a separator in the token a word may reach over the start of a segment. -/
example : occurrences .word (text "a/a") (text "a/a/a") = [⟨0, 3⟩] ∧
    occurrences .segment (text "a/a") (text "a/a/a") = [⟨2, 5⟩] := by
  decide +kernel

end ImportFinder.Matching
