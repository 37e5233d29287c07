import ImportFinder.Proofs.Text.Enclosed

/-!
# Trimming

Trimming drops white space characters from both ends of a text, and a character
may be several bytes long. At one place of a text it does not look beyond an ASCII
byte, as such a byte is part of no longer character (`dropChars_append`). So

* white space of one byte at the end of a text makes no difference
  (`trim_append_space`);
* bytes that are no white space are left alone at the end, together with all that
  stands before them (`trimEnd_cons`), so a text starts with the same such bytes
  after its end is trimmed (`prefix_trimEnd_iff`);
* white space of one byte each may be dropped at the start beforehand
  (`trimStart_dropWhile`).
-/

namespace ImportFinder.Text

variable {width : Text → Nat} {b : UInt8} {s t : Text}

/-- Characters at the start of `s ++ t` are dropped as those of `s`, and as those
    of `t` when nothing is left of `s`, if they end in `s` where they end
    without `t`. -/
theorem dropChars_append (hlength : ∀ u, width u ≤ u.length)
    (hwidth : ∀ u, u ≠ [] → width (u ++ t) = width u) {k : Nat} (hk : k ≤ s.length) :
    dropChars width k (s ++ t) =
      if dropChars width k s = [] then dropChars width 0 t else dropChars width k s ++ t := by
  induction s generalizing k with
  | nil =>
    obtain rfl : k = 0 := Nat.le_zero.1 hk
    rfl
  | cons c s ih =>
    cases k with
    | succ k => exact ih (Nat.le_of_succ_le_succ hk)
    | zero =>
      have hc := hwidth (c :: s) (List.cons_ne_nil c s)
      have hle := hlength (c :: s)
      rw [List.cons_append] at hc ⊢
      rw [dropChars, dropChars, hc]
      cases hn : width (c :: s) with
      | zero => rfl
      | succ n =>
        rw [hn, List.length_cons] at hle
        exact ih (Nat.le_of_succ_le_succ hle)

theorem leadingSpace_le (t : Text) : leadingSpace t ≤ t.length := by
  fun_cases leadingSpace t <;> simp

theorem trailingSpace_le (t : Text) : trailingSpace t ≤ t.length := by
  fun_cases trailingSpace t <;> simp

/-! ### ASCII bytes -/

theorem le_of_isPairSpace {b₀ b₁ : UInt8} (h : isPairSpace b₀ b₁ = true) :
    0x80 ≤ b₀ ∧ 0x80 ≤ b₁ := by
  simp only [isPairSpace, Bool.and_eq_true, Bool.or_eq_true, beq_iff_eq] at h
  obtain ⟨rfl, rfl | rfl⟩ := h <;> decide

theorem le_of_isWideSpace {b₀ b₁ b₂ : UInt8} (h : isWideSpace b₀ b₁ b₂ = true) :
    0x80 ≤ b₀ ∧ 0x80 ≤ b₁ ∧ 0x80 ≤ b₂ := by
  simp only [isWideSpace, Bool.and_eq_true, Bool.or_eq_true, beq_iff_eq, decide_eq_true_eq] at h
  rcases h with ((⟨⟨rfl, rfl⟩, rfl⟩ | ⟨⟨rfl, rfl⟩, ((h | rfl) | rfl) | rfl⟩) |
    ⟨⟨rfl, rfl⟩, rfl⟩) | ⟨⟨rfl, rfl⟩, rfl⟩
  case inl.inl.inr.inl.inl.inl => exact ⟨by decide, by decide, h.1⟩
  all_goals decide

theorem isPairSpace_eq_false {b₀ b₁ : UInt8} (h : b₀ < 0x80 ∨ b₁ < 0x80) :
    isPairSpace b₀ b₁ = false := by
  refine Bool.eq_false_iff.2 fun hspace => ?_
  obtain ⟨h₀, h₁⟩ := le_of_isPairSpace hspace
  exact h.elim (UInt8.not_lt.2 h₀) (UInt8.not_lt.2 h₁)

theorem isWideSpace_eq_false {b₀ b₁ b₂ : UInt8} (h : b₀ < 0x80 ∨ b₁ < 0x80 ∨ b₂ < 0x80) :
    isWideSpace b₀ b₁ b₂ = false := by
  refine Bool.eq_false_iff.2 fun hspace => ?_
  obtain ⟨h₀, h₁, h₂⟩ := le_of_isWideSpace hspace
  exact h.elim (UInt8.not_lt.2 h₀) fun h => h.elim (UInt8.not_lt.2 h₁) (UInt8.not_lt.2 h₂)

/-- A white space character at the start of a text ends before an ASCII byte. -/
theorem leadingSpace_append (hb : b < 0x80) (hs : s ≠ []) :
    leadingSpace (s ++ b :: t) = leadingSpace s := by
  match s with
  | [] => exact absurd rfl hs
  | [c] =>
    have hpair : isPairSpace c b = false := isPairSpace_eq_false (.inr hb)
    have hwide (d : UInt8) : isWideSpace c b d = false := isWideSpace_eq_false (.inr (.inl hb))
    cases t <;> simp [leadingSpace, hpair, hwide]
  | [c, d] =>
    have hwide : isWideSpace c d b = false := isWideSpace_eq_false (.inr (.inr hb))
    simp [leadingSpace, hwide]
  | c :: d :: e :: s => rfl

/-- A white space character at the end of a text starts behind an ASCII byte. -/
theorem trailingSpace_append (hb : b < 0x80) (hs : s ≠ []) :
    trailingSpace (s ++ b :: t) = trailingSpace s := by
  match s with
  | [] => exact absurd rfl hs
  | [c] =>
    have hpair : isPairSpace b c = false := isPairSpace_eq_false (.inl hb)
    have hwide (d : UInt8) : isWideSpace d b c = false := isWideSpace_eq_false (.inr (.inl hb))
    cases t <;> simp [trailingSpace, hpair, hwide]
  | [c, d] =>
    have hwide : isWideSpace b d c = false := isWideSpace_eq_false (.inl hb)
    simp [trailingSpace, hwide]
  | c :: d :: e :: s => rfl

theorem lt_of_isAsciiSpace (hb : isAsciiSpace b = true) : b < 0x80 := by
  simp only [isAsciiSpace, Bool.or_eq_true, Bool.and_eq_true, beq_iff_eq, decide_eq_true_eq] at hb
  rcases hb with rfl | hb
  · decide
  · exact UInt8.lt_of_le_of_lt hb.2 (by decide)

theorem lt_of_isSpaceByte_eq_false (hb : isSpaceByte b = false) : b < 0x80 := by
  simpa [isSpaceByte] using (Bool.or_eq_false_iff.1 hb).2

/-! ### White space of one byte -/

theorem leadingSpace_cons (hb : isAsciiSpace b = true) (t : Text) :
    leadingSpace (b :: t) = 1 := by
  simp [leadingSpace, hb]

theorem trailingSpace_cons (hb : isAsciiSpace b = true) (t : Text) :
    trailingSpace (b :: t) = 1 := by
  simp [trailingSpace, hb]

theorem trimStart_cons (hb : isAsciiSpace b = true) (t : Text) :
    trimStart (b :: t) = trimStart t := by
  rw [trimStart, dropChars, leadingSpace_cons hb]
  rfl

theorem trimEnd_append_space (hb : isAsciiSpace b = true) (t : Text) :
    trimEnd (t ++ [b]) = trimEnd t := by
  rw [trimEnd, List.reverse_append, List.reverse_singleton, List.singleton_append, dropChars,
    trailingSpace_cons hb]
  rfl

theorem trimStart_append_space (hb : isAsciiSpace b = true) (t : Text) :
    trimStart (t ++ [b]) = if trimStart t = [] then [] else trimStart t ++ [b] := by
  have hdrop := dropChars_append (k := 0) (s := t) (t := [b]) leadingSpace_le
    (fun u hu => leadingSpace_append (lt_of_isAsciiSpace hb) hu) (Nat.zero_le _)
  have hlast : dropChars leadingSpace 0 [b] = [] := trimStart_cons hb []
  rwa [hlast] at hdrop

/-- White space of one byte at the end of a text makes no difference to what is
    left of it. -/
theorem trim_append_space (hb : isAsciiSpace b = true) (t : Text) :
    trim (t ++ [b]) = trim t := by
  rw [trim, trim, trimStart_append_space hb]
  split_ifs with hnil
  · rw [hnil]
  · exact trimEnd_append_space hb _

/-- White space of one byte each may be dropped at the start of a text
    beforehand. -/
theorem trimStart_dropWhile {p : UInt8 → Bool} (hp : ∀ b, p b = true → isAsciiSpace b = true)
    (t : Text) : trimStart (t.dropWhile p) = trimStart t := by
  induction t with
  | nil => rfl
  | cons b t ih =>
    rw [List.dropWhile_cons]
    split_ifs with hb
    · rw [ih, trimStart_cons (hp b hb)]
    · rfl

/-! ### Bytes that are no white space -/

/-- No character that consists of white space starts with another byte. -/
theorem width_eq_zero (hall : ∀ t : Text, ∀ c ∈ t.take (width t), isSpaceByte c = true)
    (hb : isSpaceByte b = false) (t : Text) : width (b :: t) = 0 := by
  have hchar := hall (b :: t) b
  cases hn : width (b :: t) with
  | zero => rfl
  | succ n => simp [hn, hb] at hchar

theorem leadingSpace_eq_zero (hb : isSpaceByte b = false) (t : Text) :
    leadingSpace (b :: t) = 0 :=
  width_eq_zero isSpaceByte_of_mem_leadingSpace hb t

theorem trailingSpace_eq_zero (hb : isSpaceByte b = false) (t : Text) :
    trailingSpace (b :: t) = 0 :=
  width_eq_zero isSpaceByte_of_mem_trailingSpace hb t

theorem trimStart_of_leadingSpace (h : leadingSpace t = 0) : trimStart t = t := by
  cases t with
  | nil => rfl
  | cons b t => rw [trimStart, dropChars, h]

/-- Trimming the end of a text stops at a byte that is no white space. -/
theorem trimEnd_cons (hb : isSpaceByte b = false) (t : Text) :
    trimEnd (b :: t) = b :: trimEnd t := by
  have hdrop := dropChars_append (k := 0) (s := t.reverse) (t := [b]) trailingSpace_le
    (fun u hu => trailingSpace_append (lt_of_isSpaceByte_eq_false hb) hu) (Nat.zero_le _)
  have hstop : dropChars trailingSpace 0 [b] = [b] := by
    rw [dropChars, trailingSpace_eq_zero hb]
  rw [trimEnd, trimEnd, List.reverse_cons, hdrop, hstop]
  split_ifs with hnil
  · simp [hnil]
  · simp

theorem prefix_trimEnd (t : Text) : trimEnd t <+: t := by
  have hall (u : Text) : ∀ b ∈ u.take (trailingSpace u), (fun _ => true) b = true := fun _ _ => rfl
  obtain ⟨back, hback, -⟩ := exists_eq_append_dropChars hall (k := 0) (t := t.reverse) (by simp)
  refine ⟨back.reverse, ?_⟩
  rw [trimEnd, ← List.reverse_append, ← hback, List.reverse_reverse]

/-- A text starts with the same bytes that are no white space before and after
    its end is trimmed. -/
theorem prefix_trimEnd_iff {mark : Text} (hmark : ∀ b ∈ mark, isSpaceByte b = false) :
    mark <+: trimEnd t ↔ mark <+: t := by
  refine ⟨fun h => h.trans (prefix_trimEnd t), ?_⟩
  rintro ⟨rest, rfl⟩
  induction mark with
  | nil => exact List.nil_prefix
  | cons b mark ih =>
    rw [List.forall_mem_cons] at hmark
    rw [List.cons_append, trimEnd_cons hmark.1, List.cons_prefix_cons]
    exact ⟨rfl, ih hmark.2⟩

/-! ### Trimming once more -/

/-- What is left when characters are dropped does not start with another one. -/
theorem width_dropChars (hnil : width [] = 0) (k : Nat) (t : Text) :
    width (dropChars width k t) = 0 := by
  induction t generalizing k with
  | nil => cases k <;> exact hnil
  | cons b t ih =>
    cases k with
    | succ k => exact ih k
    | zero =>
      rw [dropChars]
      split
      · assumption
      · exact ih _

/-- A white space character at the start of a text is there whatever follows. -/
theorem leadingSpace_append_of_ne (hs : leadingSpace s ≠ 0) (t : Text) :
    leadingSpace (s ++ t) ≠ 0 := by
  match s with
  | [] => exact absurd rfl hs
  | [b] =>
    have hb : isAsciiSpace b = true := by
      by_contra hb
      simp [leadingSpace, hb] at hs
    rw [List.singleton_append, leadingSpace_cons hb]
    exact Nat.one_ne_zero
  | [b, c] =>
    by_cases hb : isAsciiSpace b = true
    · rw [List.cons_append, leadingSpace_cons hb]
      exact Nat.one_ne_zero
    · have hpair : isPairSpace b c = true := by
        by_contra hpair
        simp [leadingSpace, hb, hpair] at hs
      simp [leadingSpace, hb, hpair]
  | b :: c :: d :: s => exact hs

theorem trimEnd_of_trailingSpace (h : trailingSpace t.reverse = 0) : trimEnd t = t := by
  rw [trimEnd, List.reverse_eq_iff]
  cases ht : t.reverse with
  | nil => rfl
  | cons b rest => rw [dropChars, ← ht, h]

/-- A text that was trimmed stays as it is when it is trimmed once more. -/
@[simp]
theorem trim_trim (t : Text) : trim (trim t) = trim t := by
  have hstart : leadingSpace (trim t) = 0 := by
    by_contra hne
    -- The white space would have been at the start before the end was trimmed.
    obtain ⟨rest, hrest⟩ := prefix_trimEnd (trimStart t)
    have hwidth := leadingSpace_append_of_ne hne rest
    rw [trim, hrest] at hwidth
    exact hwidth (width_dropChars rfl 0 t)
  have hend : trailingSpace (trim t).reverse = 0 := by
    rw [trim, trimEnd, List.reverse_reverse]
    exact width_dropChars rfl 0 _
  rw [trim, trimStart_of_leadingSpace hstart, trimEnd_of_trailingSpace hend]

end ImportFinder.Text
