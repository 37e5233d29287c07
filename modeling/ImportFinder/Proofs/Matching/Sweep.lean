import ImportFinder.Proofs.Matching.Occurrence
import Mathlib

/-!
# The search for a token as a sweep

A token may stand at many positions of a text with bytes next to it that are
accepted (`StandsAt`), and occurrences at different positions may overlap. The
search takes some of them: from left to right, each time the first one that does
not overlap those taken before. That is a *sweep* over the positions (`Sweep`),
and all that is said about the search follows from its being one
(`sweep_occurrences`):

* `Sweep.mem`, `Sweep.pairwise`: what is taken stands where it may, in order and
  without overlaps;
* `Sweep.covers`: what is not taken overlaps something that was taken before it;
* `Sweep.card_le`: all occurrences are of the same length, so that the one which
  starts first is the first to end. Hence no choice of disjoint occurrences has
  more of them than the sweep takes.
-/

namespace ImportFinder.Matching

variable {boundary : Boundary} {token t : Text}

/-- A token stands at a position of a text, and the bytes next to it there are
    accepted. -/
def StandsAt (boundary : Boundary) (token t : Text) (i : Nat) : Prop :=
  ∃ front back, t = front ++ (token ++ back) ∧ front.length = i ∧
    boundary.accepts front.getLast? back.head? = true

/-- Whether a token stands somewhere is seen on the bytes that follow, and on the
    one before. -/
theorem standsAt_length_iff {front rest : Text} :
    StandsAt boundary token (front ++ rest) front.length ↔
      (token.isPrefixOf rest &&
        boundary.accepts front.getLast? (rest.drop token.length).head?) = true := by
  rw [Bool.and_eq_true, List.isPrefixOf_iff_prefix]
  constructor
  · rintro ⟨front', back, hsplit, hlength, haccepts⟩
    obtain ⟨rfl, rfl⟩ := List.append_inj hsplit hlength.symm
    rw [List.drop_left]
    exact ⟨List.prefix_append _ _, haccepts⟩
  · rintro ⟨⟨back, rfl⟩, haccepts⟩
    rw [List.drop_left] at haccepts
    exact ⟨front, back, rfl, rfl, haccepts⟩

theorem StandsAt.le_length {i : Nat} (h : StandsAt boundary token t i) :
    i + token.length ≤ t.length := by
  obtain ⟨front, back, rfl, rfl, _⟩ := h
  simp only [List.length_append]
  omega

/-! ### Sweeps -/

/-- Spans of one length that are taken from some position on: the first that
    starts at a position satisfying `p`, then the first behind it, and so on until
    there is none. -/
inductive Sweep (p : Nat → Prop) (length : Nat) : Nat → List Span → Prop
  | done {i : Nat} (hnone : ∀ k, i ≤ k → ¬ p k) : Sweep p length i []
  | take {i j : Nat} {spans : List Span} (hle : i ≤ j) (hfirst : ∀ k, i ≤ k → k < j → ¬ p k)
      (hstands : p j) (hrest : Sweep p length (j + length) spans) :
      Sweep p length i (⟨j, j + length⟩ :: spans)

namespace Sweep

variable {p : Nat → Prop} {length i k : Nat} {spans : List Span} {s : Span}

/-- A sweep may start earlier where there is nothing to take. -/
theorem of_le {j : Nat} (h : Sweep p length j spans) (hij : i ≤ j)
    (hnone : ∀ k, i ≤ k → k < j → ¬ p k) : Sweep p length i spans := by
  cases h with
  | done hbehind =>
    refine .done fun k hk => ?_
    by_cases hlt : k < j
    · exact hnone k hk hlt
    · exact hbehind k (Nat.le_of_not_lt hlt)
  | take hle hfirst hstands hrest =>
    refine .take (Nat.le_trans hij hle) (fun k hk hkj => ?_) hstands hrest
    by_cases hlt : k < j
    · exact hnone k hk hlt
    · exact hfirst k (Nat.le_of_not_lt hlt) hkj

theorem of_succ (h : Sweep p length (i + 1) spans) (hi : ¬ p i) : Sweep p length i spans := by
  refine h.of_le (Nat.le_succ i) fun k hk hlt => ?_
  obtain rfl : k = i := Nat.le_antisymm (Nat.le_of_lt_succ hlt) hk
  exact hi

/-- What is taken starts at a position that is allowed. -/
theorem mem (h : Sweep p length i spans) (hs : s ∈ spans) :
    i ≤ s.start ∧ p s.start ∧ s.stop = s.start + length := by
  induction h with
  | done => exact absurd hs List.not_mem_nil
  | take hle _ hstands _ ih =>
    rcases List.mem_cons.1 hs with rfl | hs
    · exact ⟨hle, hstands, rfl⟩
    · exact ⟨by have := (ih hs).1; omega, (ih hs).2⟩

/-- What is taken comes in order and does not overlap. -/
theorem pairwise (h : Sweep p length i spans) (hlength : 0 < length) :
    spans.Pairwise fun a b => a.start < b.start ∧ a.stop ≤ b.start := by
  induction h with
  | done => exact List.Pairwise.nil
  | take _ _ _ hrest ih =>
    refine List.pairwise_cons.2 ⟨fun s hs => ?_, ih⟩
    have hle := (hrest.mem hs).1
    exact ⟨by dsimp only; omega, hle⟩

/-- What is not taken overlaps something that was taken before it. -/
theorem covers (h : Sweep p length i spans) (hk : p k) (hle : i ≤ k) :
    ∃ s ∈ spans, k = s.start ∨ s.start < k ∧ k < s.stop := by
  induction h with
  | done hnone => exact absurd hk (hnone k hle)
  | @take i j spans hij hfirst _ _ ih =>
    by_cases hlt : k < j + length
    · -- Nothing comes before the first position that is taken.
      have hjk : j ≤ k := Nat.le_of_not_lt fun hkj => hfirst k hle hkj hk
      exact ⟨_, List.mem_cons_self, by dsimp only; omega⟩
    · obtain ⟨s, hs, hcovers⟩ := ih (Nat.le_of_not_lt hlt)
      exact ⟨s, List.mem_cons_of_mem _ hs, hcovers⟩

/-- Of positions that are at least `length` apart, at most one lies within that
    length from any place on. -/
theorem card_le_one {positions : Finset Nat} {j : Nat} (hfrom : ∀ k ∈ positions, j ≤ k)
    (hto : ∀ k ∈ positions, k < j + length)
    (hapart : ∀ a ∈ positions, ∀ b ∈ positions, a ≠ b → a + length ≤ b ∨ b + length ≤ a) :
    positions.card ≤ 1 := by
  refine Finset.card_le_one.2 fun a ha b hb => ?_
  by_contra hne
  have hab := hapart a ha b hb hne
  have hja := hfrom a ha
  have hjb := hfrom b hb
  have haj := hto a ha
  have hbj := hto b hb
  omega

/-- Whatever positions are chosen with that distance between them, a sweep takes
    as many. -/
theorem card_le (h : Sweep p length i spans) {positions : Finset Nat}
    (hp : ∀ k ∈ positions, i ≤ k ∧ p k)
    (hapart : ∀ a ∈ positions, ∀ b ∈ positions, a ≠ b → a + length ≤ b ∨ b + length ≤ a) :
    positions.card ≤ spans.length := by
  induction h generalizing positions with
  | done hnone =>
    have hempty : positions = ∅ :=
      Finset.eq_empty_of_forall_notMem fun k hk => hnone k (hp k hk).1 (hp k hk).2
    rw [hempty, Finset.card_empty]
    exact Nat.zero_le _
  | @take i j spans hij hfirst _ _ ih =>
    -- One position may lie where the first span does, and the others lie behind it.
    have hnear : (positions.filter fun k => ¬ j + length ≤ k).card ≤ 1 := by
      have hto : ∀ k ∈ positions.filter fun k => ¬ j + length ≤ k, k < j + length :=
        fun k hk => Nat.lt_of_not_le (Finset.mem_filter.1 hk).2
      refine card_le_one (fun k hk => ?_) hto fun a ha b hb => ?_
      · have hk := hp k (Finset.mem_filter.1 hk).1
        exact Nat.le_of_not_lt fun hkj => hfirst k hk.1 hkj hk.2
      · exact hapart a (Finset.mem_filter.1 ha).1 b (Finset.mem_filter.1 hb).1
    have hfar : (positions.filter fun k => j + length ≤ k).card ≤ spans.length := by
      refine ih (fun k hk => ?_) fun a ha b hb => ?_
      · exact ⟨(Finset.mem_filter.1 hk).2, (hp k (Finset.mem_filter.1 hk).1).2⟩
      · exact hapart a (Finset.mem_filter.1 ha).1 b (Finset.mem_filter.1 hb).1
    rw [← Finset.card_filter_add_card_filter_not (fun k => j + length ≤ k), List.length_cons]
    exact Nat.add_le_add hfar hnear

end Sweep

/-! ### The search -/

/-- The search from some place of a text on takes the first occurrence behind
    those bytes that are skipped, and so on. -/
theorem sweep_occurrencesFrom (htoken : token ≠ []) (skip : Nat) (front rest : Text) :
    Sweep (StandsAt boundary token (front ++ rest)) token.length (front.length + skip)
      (occurrencesFrom boundary token skip front.getLast? front.length rest) := by
  have hpos : 0 < token.length := List.length_pos_iff.2 htoken
  induction rest generalizing skip front with
  | nil =>
    have hnil : occurrencesFrom boundary token skip front.getLast? front.length [] = [] := by
      cases skip <;> rfl
    rw [hnil]
    refine .done fun k hk hstands => ?_
    have hle := hstands.le_length
    rw [List.append_nil] at hle
    omega
  | cons b rest ih =>
    -- The induction goes on behind the first byte, for any number of bytes to skip.
    have hnext (skip : Nat) := ih skip (front ++ [b])
    simp only [List.append_assoc, List.singleton_append, List.length_append, List.length_singleton,
      List.getLast?_append, List.getLast?_singleton, Option.some_or] at hnext
    cases skip with
    | succ skip =>
      have hskip := hnext skip
      rwa [Nat.add_assoc, Nat.add_comm 1 skip] at hskip
    | zero =>
      rw [occurrencesFrom, Nat.add_zero]
      split_ifs with hfound
      · refine .take (Nat.le_refl _) (fun k hk hlt => absurd hlt (Nat.not_lt.2 hk))
          (standsAt_length_iff.2 hfound) ?_
        have hrest := hnext (token.length - 1)
        rwa [Nat.add_assoc, Nat.add_sub_cancel' hpos] at hrest
      · exact (hnext 0).of_succ fun hstands => hfound (standsAt_length_iff.1 hstands)

/-- The search for a token is a sweep over the positions at which it stands. -/
theorem sweep_occurrences (htoken : token ≠ []) :
    Sweep (StandsAt boundary token t) token.length 0 (occurrences boundary token t) := by
  rw [occurrences, if_neg (by simpa using htoken)]
  exact sweep_occurrencesFrom htoken 0 [] t

/-- A choice of positions at which a token stands in a text, such that no two of
    the occurrences share a byte. -/
structure Choice (boundary : Boundary) (token t : Text) (positions : Finset Nat) : Prop where
  stands : ∀ i ∈ positions, StandsAt boundary token t i
  disjoint : (positions : Set Nat).PairwiseDisjoint fun i => Set.Ico i (i + token.length)

/-- Two ranges of one length share nothing if each starts behind the end of the
    other one. -/
theorem disjoint_range_iff {length a b : Nat} :
    Disjoint (Set.Ico a (a + length)) (Set.Ico b (b + length)) ↔
      a + length ≤ b ∨ b + length ≤ a := by
  rw [Set.Ico_disjoint_Ico]
  omega

/-- No choice of disjoint occurrences has more of them than are found. -/
theorem Choice.card_le (htoken : token ≠ []) {positions : Finset Nat}
    (h : Choice boundary token t positions) :
    positions.card ≤ countOccurrences boundary token t :=
  (sweep_occurrences htoken).card_le (fun k hk => ⟨Nat.zero_le k, h.stands k hk⟩)
    fun _ ha _ hb hne =>
      disjoint_range_iff.1 (h.disjoint ha hb hne)

/-- What is found is a choice of disjoint occurrences. -/
theorem exists_choice (htoken : token ≠ []) : ∃ positions, Choice boundary token t positions ∧
    positions.card = countOccurrences boundary token t := by
  have hlength : 0 < token.length := List.length_pos_iff.2 htoken
  have hsweep : Sweep (StandsAt boundary token t) token.length 0 (occurrences boundary token t) :=
    sweep_occurrences htoken
  have hnodup : ((occurrences boundary token t).map (·.start)).Nodup :=
    List.pairwise_map.2 ((hsweep.pairwise hlength).imp fun h => Nat.ne_of_lt h.1)
  refine ⟨((occurrences boundary token t).map (·.start)).toFinset, ⟨fun i hi => ?_, ?_⟩, ?_⟩
  · obtain ⟨s, hs, rfl⟩ := List.mem_map.1 (List.mem_toFinset.1 hi)
    exact (hsweep.mem hs).2.1
  · -- Of two spans that are found, one ends before the other starts.
    have hends : (occurrences boundary token t).Pairwise fun a b =>
        a.stop ≤ b.start ∨ b.stop ≤ a.start :=
      (hsweep.pairwise hlength).imp fun h => .inl h.2
    have hsymm : Std.Symm fun a b : Span => a.stop ≤ b.start ∨ b.stop ≤ a.start :=
      ⟨fun _ _ => Or.symm⟩
    intro i hi j hj hne
    obtain ⟨a, ha, rfl⟩ := List.mem_map.1 (List.mem_toFinset.1 hi)
    obtain ⟨b, hb, rfl⟩ := List.mem_map.1 (List.mem_toFinset.1 hj)
    have hab := hends.forall ha hb fun h => hne (congrArg Span.start h)
    rw [(hsweep.mem ha).2.2, (hsweep.mem hb).2.2] at hab
    exact disjoint_range_iff.2 hab
  · rw [List.toFinset_card_of_nodup hnodup, List.length_map, countOccurrences]

theorem occurs_iff_standsAt (htoken : token ≠ []) :
    occurs boundary token t = true ↔ ∃ i, StandsAt boundary token t i := by
  rw [occurs_iff, and_iff_right htoken]
  constructor
  · rintro ⟨front, back, hsplit, haccepts⟩
    exact ⟨front.length, front, back, hsplit, rfl, haccepts⟩
  · rintro ⟨_, front, back, hsplit, _, haccepts⟩
    exact ⟨front, back, hsplit, haccepts⟩

/-- The search for a token finds occurrences at positions where it stands, in
    order and without overlaps; where it stands and is not found, it lies inside
    of what is found. It is found at all if it stands somewhere, and the number
    of times that it is found is the largest number of disjoint occurrences. The
    empty token is never found. -/
theorem occurrences_greatest (boundary : Boundary) (token t : Text) :
    (token ≠ [] →
      (∀ s ∈ occurrences boundary token t,
        StandsAt boundary token t s.start ∧ s.stop = s.start + token.length) ∧
      ((occurrences boundary token t).Pairwise fun a b =>
        a.start < b.start ∧ a.stop ≤ b.start) ∧
      (∀ i, StandsAt boundary token t i →
        ∃ s ∈ occurrences boundary token t, i = s.start ∨ s.start < i ∧ i < s.stop) ∧
      (occurs boundary token t = true ↔ ∃ i, StandsAt boundary token t i) ∧
      countOccurrences boundary token t = (occurrences boundary token t).length ∧
      IsGreatest {n | ∃ positions, Choice boundary token t positions ∧ positions.card = n}
        (countOccurrences boundary token t)) ∧
    (occurrences boundary [] t = [] ∧ occurs boundary [] t = false ∧
      countOccurrences boundary [] t = 0) := by
  refine ⟨fun htoken => ?_, rfl, rfl, rfl⟩
  have hsweep : Sweep (StandsAt boundary token t) token.length 0 (occurrences boundary token t) :=
    sweep_occurrences htoken
  refine ⟨fun s hs => (hsweep.mem hs).2, hsweep.pairwise (List.length_pos_iff.2 htoken),
    fun i hi => hsweep.covers hi (Nat.zero_le i), occurs_iff_standsAt htoken, rfl,
    exists_choice htoken, ?_⟩
  rintro n ⟨positions, hchoice, rfl⟩
  exact hchoice.card_le htoken

/-- The word `a-a` stands in `xa-a-a a-a-a` at the positions `3`, `7` and `9`, but
    not behind the letter at `1`. The last two occurrences overlap, so that no more
    than two are disjoint, and two are found. -/
theorem occurrences_greatest_sample :
    occurrences .word (text "a-a") (text "xa-a-a a-a-a") = [⟨3, 6⟩, ⟨7, 10⟩] ∧
    (∃ s ∈ occurrences .word (text "a-a") (text "xa-a-a a-a-a"),
      9 = s.start ∨ s.start < 9 ∧ 9 < s.stop) ∧
    IsGreatest {n | ∃ positions, Choice .word (text "a-a") (text "xa-a-a a-a-a") positions ∧
      positions.card = n} 2 := by
  have htoken : text "a-a" ≠ [] := by decide
  obtain ⟨_, _, hcovers, _, hcount, hgreatest⟩ :=
    (occurrences_greatest .word (text "a-a") (text "xa-a-a a-a-a")).1 htoken
  have hfound : occurrences .word (text "a-a") (text "xa-a-a a-a-a") = [⟨3, 6⟩, ⟨7, 10⟩] := by
    decide +kernel
  have hstands : StandsAt .word (text "a-a") (text "xa-a-a a-a-a") 9 :=
    ⟨text "xa-a-a a-", [], by decide +kernel, by decide +kernel, by decide +kernel⟩
  rw [hcount, hfound] at hgreatest
  exact ⟨hfound, hcovers 9 hstands, hgreatest⟩

end ImportFinder.Matching
