import ImportFinder.Text.Numeral

/-!
# Reading numerals back

A decimal numeral consists of digits and has the number as its value
(`value_ofNat`). So where no digit follows, a text tells which number it starts
with, and where the numeral ends (`ofInt_append_inj`).
-/

namespace ImportFinder.Text

variable {n : Nat} {r s : Text}

/-- The number that decimal digits stand for. -/
def value (digits : Text) : Nat := digits.foldl (fun n b => 10 * n + digitValue b) 0

theorem isDigit_digit : ∀ d < 10, isDigit (digit d) = true ∧ digitValue (digit d) = d := by
  decide

theorem ofNat_of_lt (h : n < 10) : ofNat n = [digit n] := by
  rw [ofNat, numeral, if_pos (.inl h)]

theorem ofNat_of_le (h : 10 ≤ n) : ofNat n = ofNat (n / 10) ++ [digit (n % 10)] := by
  rw [ofNat, numeral, if_neg (by omega)]
  rfl

theorem value_ofNat (n : Nat) : value (ofNat n) = n := by
  induction n using Nat.strongRecOn with
  | _ n ih =>
    by_cases h : n < 10
    · rw [ofNat_of_lt h]
      simpa [value] using (isDigit_digit n h).2
    · have hlast := (isDigit_digit (n % 10) (Nat.mod_lt n (by decide))).2
      have hfront := ih (n / 10) (by omega)
      unfold value at hfront ⊢
      rw [ofNat_of_le (by omega), List.foldl_append, hfront, List.foldl_cons, List.foldl_nil, hlast]
      omega

theorem isDigit_of_mem_ofNat (n : Nat) : ∀ b ∈ ofNat n, isDigit b = true := by
  induction n using Nat.strongRecOn with
  | _ n ih =>
    intro b hb
    by_cases h : n < 10
    · rw [ofNat_of_lt h, List.mem_singleton] at hb
      exact hb ▸ (isDigit_digit n h).1
    · rw [ofNat_of_le (by omega), List.mem_append, List.mem_singleton] at hb
      rcases hb with hb | rfl
      · exact ih (n / 10) (by omega) b hb
      · exact (isDigit_digit (n % 10) (Nat.mod_lt n (by decide))).1

theorem ofNat_ne_nil (n : Nat) : ofNat n ≠ [] := by
  by_cases h : n < 10
  · simp [ofNat_of_lt h]
  · simp [ofNat_of_le (Nat.le_of_not_lt h)]

/-- The digits at the start of a text. -/
theorem takeWhile_ofNat_append (n : Nat) (hr : ∀ b ∈ r.head?, isDigit b = false) :
    (ofNat n ++ r).takeWhile isDigit = ofNat n := by
  rw [List.takeWhile_append_of_pos (isDigit_of_mem_ofNat n)]
  cases r with
  | nil => simp
  | cons b r => simp [hr b rfl]

theorem ofNat_append_inj {m n : Nat} (hr : ∀ b ∈ r.head?, isDigit b = false)
    (hs : ∀ b ∈ s.head?, isDigit b = false) (h : ofNat m ++ r = ofNat n ++ s) :
    m = n ∧ r = s := by
  have hdigits := congrArg (List.takeWhile isDigit) h
  rw [takeWhile_ofNat_append m hr, takeWhile_ofNat_append n hs] at hdigits
  have hvalue := congrArg value hdigits
  rw [value_ofNat, value_ofNat] at hvalue
  obtain rfl := hvalue
  exact ⟨rfl, List.append_cancel_left h⟩

/-- A numeral does not start with a minus sign. -/
theorem ofNat_append_ne_minus (n : Nat) (r s : Text) : ofNat n ++ r ≠ 0x2D :: s := by
  intro h
  obtain ⟨b, rest, hb⟩ := List.exists_cons_of_ne_nil (ofNat_ne_nil n)
  have hdigit := isDigit_of_mem_ofNat n b (by simp [hb])
  rw [hb, List.cons_append] at h
  rw [(List.cons.inj h).1] at hdigit
  exact absurd hdigit (by decide)

/-- Where no digit follows, a text tells which number it starts with. -/
theorem ofInt_append_inj {m n : Int} (hr : ∀ b ∈ r.head?, isDigit b = false)
    (hs : ∀ b ∈ s.head?, isDigit b = false) (h : ofInt m ++ r = ofInt n ++ s) :
    m = n ∧ r = s := by
  cases m with
  | ofNat m =>
    cases n with
    | ofNat n =>
      obtain ⟨rfl, rfl⟩ := ofNat_append_inj hr hs h
      exact ⟨rfl, rfl⟩
    | negSucc n => exact absurd h (ofNat_append_ne_minus m r _)
  | negSucc m =>
    cases n with
    | ofNat n => exact absurd h.symm (ofNat_append_ne_minus n s _)
    | negSucc n =>
      obtain ⟨hmn, rfl⟩ := ofNat_append_inj hr hs (List.cons.inj h).2
      exact ⟨congrArg Int.negSucc (Nat.succ.inj hmn), rfl⟩

end ImportFinder.Text
