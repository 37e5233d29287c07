import ImportFinder.Proofs.Text.Utf8
import ImportFinder.Text.Lower

/-!
# Dots in lower case

Only a dot has a dot as its lower case letter, and no character beyond ASCII is
written with the byte of one. So a text without a dot has none in lower case
(`dot_not_mem_lower`), and only the empty text is empty then
(`lower_eq_nil_iff`).
-/

namespace ImportFinder

namespace Utf8

variable {c : Char} {t : Text}

/-- A byte below 0x80 stands for itself in the bytes of a character. -/
theorem toNat_of_mem_encodeChar {b : UInt8} (hb : b.toNat < 0x80) (h : b ∈ encodeChar c) :
    c.toNat = b.toNat := by
  have hoctet : ∀ n, (UInt8.ofNat n).toNat = n % 256 := fun n => UInt8.toNat_ofNat'
  rw [encodeChar_eq] at h
  split_ifs at h
  · rw [List.mem_singleton.1 h, hoctet]
    omega
  all_goals
    -- Every byte of a longer encoding is at least 0x80.
    simp only [List.mem_cons, List.not_mem_nil, or_false] at h
    rcases h with rfl | rfl | rfl | rfl <;> rw [hoctet] at hb <;> omega

/-- The bytes of the characters of a text are bytes of the text. -/
theorem mem_of_mem_chars (h : c ∈ chars t) (hc : c ≠ replacement) {b : UInt8}
    (hb : b ∈ encodeChar c) : b ∈ t := by
  obtain ⟨i, hi, rfl⟩ := List.mem_map.1 h
  cases i with
  | stray => exact absurd rfl hc
  | char c =>
    rw [← flatMap_bytes_decode t]
    exact List.mem_flatMap.2 ⟨_, hi, hb⟩

end Utf8

namespace Text

variable {c : Char} {t : Text}

/-- Lower case letters from beyond ASCII are no dots. -/
theorem dot_lt_of_mem_lowerRanges : ∀ r ∈ lowerRanges, 0x2E < r.2.2.2 := by decide +kernel

/-- Only a dot is a dot in lower case. -/
theorem eq_of_lowerChar (h : lowerChar c = '.') : c = '.' := by
  have hofNat : ∀ {n : Nat}, 0x2E < n → Char.ofNat n ≠ '.' := by
    intro n hn hdot
    by_cases hvalid : n.isValidChar
    · have hnumber := Utf8.toNat_ofNat hvalid
      rw [hdot] at hnumber
      exact absurd hnumber (Nat.ne_of_lt hn)
    · rw [Char.ofNat, dif_neg hvalid] at hdot
      exact absurd hdot (by decide)
  rw [lowerChar] at h
  split_ifs at h with hascii hupper
  · simp only [Bool.and_eq_true, decide_eq_true_eq] at hupper
    exact absurd h (hofNat (by omega))
  · exact h
  · split at h
    · next first _ _ target hrange =>
      have htarget : 0x2E < target :=
        dot_lt_of_mem_lowerRanges _ (List.mem_of_find?_eq_some hrange)
      exact absurd h (hofNat (by omega))
    · exact h

theorem dot_not_mem_lower (h : dot ∉ t) : dot ∉ lower t := by
  intro hmem
  obtain ⟨c, hc, hdot⟩ := List.mem_flatMap.1 hmem
  have hlower : lowerChar c = '.' :=
    Char.toNat_inj.1 (Utf8.toNat_of_mem_encodeChar (by decide) hdot)
  obtain rfl := eq_of_lowerChar hlower
  exact h (Utf8.mem_of_mem_chars hc (by decide) (by decide))

theorem lower_eq_nil_iff : lower t = [] ↔ t = [] := by
  constructor
  · intro h
    have hnone : Utf8.decode t = [] := by
      rw [lower, Utf8.chars, List.flatMap_map, List.flatMap_eq_nil_iff] at h
      exact List.eq_nil_iff_forall_not_mem.2 fun i hi => String.utf8EncodeChar_ne_nil (h i hi)
    rw [← Utf8.flatMap_bytes_decode t, hnone]
    rfl
  · rintro rfl
    rfl

end Text

end ImportFinder
