import ImportFinder.Text.Utf8
import Mathlib.Tactic.SplitIfs

/-!
# Characters and their bytes

A text starts with a character in one of four ways, by one to four bytes
(`Utf8.Starts`). These are the ways in which characters are read, and the ways in
which they are written. So the bytes of a character are never the start of those
of another one (`encodeChar_append_inj`), and a text in which no byte is stray is
the bytes of its characters (`encode_chars`), hence known from them
(`eq_of_chars_eq`).
-/

namespace ImportFinder.Utf8

/-! ### One character -/

/-- A text starts with the character of a number, by some bytes. -/
inductive Starts : Nat → Nat → Text → Prop
  | one {v : Nat} {b : UInt8} {rest : Text} (hb : b.toNat < 0x80) (hv : v = b.toNat) :
      Starts v 1 (b :: rest)
  | two {v : Nat} {b b₁ : UInt8} {rest : Text} (hb : 0xC2 ≤ b.toNat ∧ b.toNat ≤ 0xDF)
      (h₁ : isContinuation b₁ = true) (hv : v = b.toNat % 32 * 64 + payload b₁) :
      Starts v 2 (b :: b₁ :: rest)
  | three {v : Nat} {b b₁ b₂ : UInt8} {rest : Text} (hb : 0xE0 ≤ b.toNat ∧ b.toNat ≤ 0xEF)
      (h₁ : isContinuation b₁ = true) (h₂ : isContinuation b₂ = true)
      (hv : v = b.toNat % 16 * 4096 + payload b₁ * 64 + payload b₂) (hlow : 0x800 ≤ v)
      (hvalid : v < 0xD800 ∨ 0xDFFF < v) : Starts v 3 (b :: b₁ :: b₂ :: rest)
  | four {v : Nat} {b b₁ b₂ b₃ : UInt8} {rest : Text} (hb : 0xF0 ≤ b.toNat ∧ b.toNat ≤ 0xF4)
      (h₁ : isContinuation b₁ = true) (h₂ : isContinuation b₂ = true)
      (h₃ : isContinuation b₃ = true)
      (hv : v = b.toNat % 8 * 262144 + payload b₁ * 4096 + payload b₂ * 64 + payload b₃)
      (hlow : 0x10000 ≤ v) (hvalid : v ≤ 0x10FFFF) : Starts v 4 (b :: b₁ :: b₂ :: b₃ :: rest)

variable {c d : Char} {t u : Text} {v n : Nat}

theorem isContinuation_iff {b : UInt8} :
    isContinuation b = true ↔ 0x80 ≤ b.toNat ∧ b.toNat ≤ 0xBF := by
  simp [isContinuation, UInt8.le_iff_toNat_le]

/-- A text that starts with a character is read so. -/
theorem Starts.leading_eq (h : Starts v n t) : leading t = some (Char.ofNat v, n) := by
  cases h with
  | one hb hv => simp [leading, UInt8.lt_iff_toNat_lt, hb, hv]
  | @two b b₁ rest hb h₁ hv =>
    have hfirst : ¬ b.toNat < 0x80 := by omega
    simp [leading, UInt8.lt_iff_toNat_lt, UInt8.le_iff_toNat_le, hb, hfirst, h₁, hv]
  | @three b b₁ b₂ rest hb h₁ h₂ hv hlow hvalid =>
    have hfirst : ¬ b.toNat < 0x80 ∧ ¬ b.toNat ≤ 0xDF := by omega
    have hnumber : ¬ (v < 0x800 ∨ 0xD800 ≤ v ∧ v ≤ 0xDFFF) := by omega
    simp [leading, UInt8.lt_iff_toNat_lt, UInt8.le_iff_toNat_le, hb, hfirst, h₁, h₂, ← hv, hnumber]
  | @four b b₁ b₂ b₃ rest hb h₁ h₂ h₃ hv hlow hvalid =>
    have hfirst : ¬ b.toNat < 0x80 ∧ ¬ b.toNat ≤ 0xDF ∧ ¬ b.toNat ≤ 0xEF := by omega
    have hnumber : ¬ (v < 0x10000 ∨ 0x10FFFF < v) := by omega
    simp [leading, UInt8.lt_iff_toNat_lt, UInt8.le_iff_toNat_le, hb, hfirst, h₁, h₂, h₃, ← hv,
      hnumber]

/-- What is read at the start of a text is the character with which it starts. -/
theorem starts_of_leading (h : leading t = some (c, n)) :
    ∃ v, Starts v n t ∧ Char.ofNat v = c := by
  unfold leading at h
  simp only [UInt8.lt_iff_toNat_lt, UInt8.le_iff_toNat_le, Bool.and_eq_true, Bool.or_eq_true,
    decide_eq_true_eq, Bool.not_eq_true', Bool.eq_false_iff] at h
  repeat' split at h
  -- All ways but four end without a character.
  any_goals contradiction
  all_goals obtain ⟨rfl, rfl⟩ := Prod.mk.inj (Option.some.inj h)
  · next hb => exact ⟨_, .one hb rfl, rfl⟩
  · next h₁ hb => exact ⟨_, .two hb (Decidable.not_not.1 h₁) rfl, rfl⟩
  · next h₁ _ _ _ _ h₂ hb hn =>
    exact ⟨_, .three hb (Decidable.not_not.1 h₁) (Decidable.not_not.1 h₂) rfl (by omega)
      (by omega), rfl⟩
  · next h₁ _ _ _ h₂ _ _ _ _ h₃ hb hn =>
    exact ⟨_, .four hb (Decidable.not_not.1 h₁) (Decidable.not_not.1 h₂) (Decidable.not_not.1 h₃)
      rfl (by omega) (by omega), rfl⟩

theorem toNat_ofNat (h : v < 0xD800 ∨ 0xDFFF < v ∧ v < 0x110000) : (Char.ofNat v).toNat = v := by
  rw [Char.ofNat, dif_pos h]
  rfl

theorem Starts.isValid (h : Starts v n t) : v < 0xD800 ∨ 0xDFFF < v ∧ v < 0x110000 := by
  cases h with
  | one hb hv => omega
  | two hb h₁ hv =>
    unfold payload at hv
    omega
  | three hb h₁ h₂ hv hlow hvalid =>
    unfold payload at hv
    omega
  | four hb h₁ h₂ h₃ hv hlow hvalid => omega

theorem encodeChar_eq (c : Char) : encodeChar c =
    if c.toNat ≤ 0x7F then [UInt8.ofNat c.toNat]
    else if c.toNat ≤ 0x7FF then
      [UInt8.ofNat (c.toNat / 64 % 32 + 192), UInt8.ofNat (c.toNat % 64 + 128)]
    else if c.toNat ≤ 0xFFFF then
      [UInt8.ofNat (c.toNat / 4096 % 16 + 224), UInt8.ofNat (c.toNat / 64 % 64 + 128),
        UInt8.ofNat (c.toNat % 64 + 128)]
    else
      [UInt8.ofNat (c.toNat / 262144 % 8 + 240), UInt8.ofNat (c.toNat / 4096 % 64 + 128),
        UInt8.ofNat (c.toNat / 64 % 64 + 128), UInt8.ofNat (c.toNat % 64 + 128)] := rfl

theorem ofNat_eq {b : UInt8} (h : n = b.toNat) : UInt8.ofNat n = b := by
  rw [h, UInt8.ofNat_toNat]

/-- The bytes with which a text starts are those that are written for the
    character. -/
theorem Starts.encodeChar_eq (h : Starts v n t) : encodeChar (Char.ofNat v) = t.take n := by
  rw [Utf8.encodeChar_eq, toNat_ofNat h.isValid]
  cases h with
  | one hb hv =>
    rw [if_pos (by omega), ofNat_eq hv]
    rfl
  | two hb h₁ hv =>
    rw [isContinuation_iff] at h₁
    unfold payload at hv
    rw [if_neg (by omega), if_pos (by omega)]
    simp only [List.take_succ_cons, List.take_zero, List.cons.injEq, and_true]
    exact ⟨ofNat_eq (by omega), ofNat_eq (by omega)⟩
  | three hb h₁ h₂ hv hlow hvalid =>
    rw [isContinuation_iff] at h₁ h₂
    unfold payload at hv
    rw [if_neg (by omega), if_neg (by omega), if_pos (by omega)]
    simp only [List.take_succ_cons, List.take_zero, List.cons.injEq, and_true]
    exact ⟨ofNat_eq (by omega), ofNat_eq (by omega), ofNat_eq (by omega)⟩
  | four hb h₁ h₂ h₃ hv hlow hvalid =>
    rw [isContinuation_iff] at h₁ h₂ h₃
    unfold payload at hv
    rw [if_neg (by omega), if_neg (by omega), if_neg (by omega)]
    simp only [List.take_succ_cons, List.take_zero, List.cons.injEq, and_true]
    exact ⟨ofNat_eq (by omega), ofNat_eq (by omega), ofNat_eq (by omega), ofNat_eq (by omega)⟩

theorem toNat_ofNat_byte (h : n < 256) : (UInt8.ofNat n).toNat = n := by
  rw [UInt8.toNat_ofNat', Nat.mod_eq_of_lt h]

/-- The bytes that are written for a character are such a start. -/
theorem starts_encodeChar (c : Char) (rest : Text) :
    Starts c.toNat (encodeChar c).length (encodeChar c ++ rest) := by
  have hvalid : c.toNat < 0xD800 ∨ 0xDFFF < c.toNat ∧ c.toNat < 0x110000 := c.valid
  rw [Utf8.encodeChar_eq]
  generalize c.toNat = v at hvalid
  split_ifs with h1 h2 h3
  · have hb : (UInt8.ofNat v).toNat = v := toNat_ofNat_byte (by omega)
    exact .one (by omega) hb.symm
  · have hb : (UInt8.ofNat (v / 64 % 32 + 192)).toNat = _ := toNat_ofNat_byte (by omega)
    have hb₁ : (UInt8.ofNat (v % 64 + 128)).toNat = _ := toNat_ofNat_byte (by omega)
    refine .two (by omega) (isContinuation_iff.2 (by omega)) ?_
    unfold payload
    omega
  · have hb : (UInt8.ofNat (v / 4096 % 16 + 224)).toNat = _ := toNat_ofNat_byte (by omega)
    have hb₁ : (UInt8.ofNat (v / 64 % 64 + 128)).toNat = _ := toNat_ofNat_byte (by omega)
    have hb₂ : (UInt8.ofNat (v % 64 + 128)).toNat = _ := toNat_ofNat_byte (by omega)
    refine .three (by omega) (isContinuation_iff.2 (by omega)) (isContinuation_iff.2 (by omega))
      ?_ (by omega) (by omega)
    unfold payload
    omega
  · have hb : (UInt8.ofNat (v / 262144 % 8 + 240)).toNat = _ := toNat_ofNat_byte (by omega)
    have hb₁ : (UInt8.ofNat (v / 4096 % 64 + 128)).toNat = _ := toNat_ofNat_byte (by omega)
    have hb₂ : (UInt8.ofNat (v / 64 % 64 + 128)).toNat = _ := toNat_ofNat_byte (by omega)
    have hb₃ : (UInt8.ofNat (v % 64 + 128)).toNat = _ := toNat_ofNat_byte (by omega)
    refine .four (by omega) (isContinuation_iff.2 (by omega)) (isContinuation_iff.2 (by omega))
      (isContinuation_iff.2 (by omega)) ?_ (by omega) (by omega)
    unfold payload
    omega

theorem leading_encodeChar (c : Char) (rest : Text) :
    leading (encodeChar c ++ rest) = some (c, (encodeChar c).length) := by
  rw [(starts_encodeChar c rest).leading_eq, Char.ofNat_toNat]

/-- The bytes of a character are never the start of those of another one. -/
theorem encodeChar_append_inj (h : encodeChar c ++ t = encodeChar d ++ u) : c = d ∧ t = u := by
  have hleading := leading_encodeChar c t
  rw [h, leading_encodeChar, Option.some_inj] at hleading
  obtain rfl := congrArg Prod.fst hleading
  exact ⟨rfl, List.append_cancel_left h⟩

/-- A byte below 0x80 at the start is a character of its own. -/
theorem eq_of_encodeChar_append {b : UInt8} (hb : b.toNat < 0x80)
    (h : encodeChar c ++ t = b :: u) : c = Char.ofNat b.toNat := by
  have hleading := leading_encodeChar c t
  rw [h, (Starts.one hb rfl).leading_eq, Option.some_inj] at hleading
  exact (congrArg Prod.fst hleading).symm

/-! ### Texts -/

theorem decodeFrom_eq (k : Nat) (read : List Item) (t : Text) :
    decodeFrom k read t = read.reverse ++ decode (t.drop k) := by
  rw [decode]
  induction t generalizing k read with
  | nil => simp [decodeFrom]
  | cons b rest ih =>
    cases k with
    | succ k => rw [decodeFrom, ih, List.drop_succ_cons]
    | zero =>
      rw [List.drop_zero, decodeFrom, decodeFrom]
      -- Both sides read the same item, and what follows is not touched by what was read.
      split
      · next c n _ => rw [ih, ih (n - 1) [.char c]]; simp
      · rw [ih, ih 0 [.stray b]]; simp

theorem decode_of_leading (h : leading t = some (c, n)) :
    decode t = .char c :: decode (t.drop n) := by
  obtain ⟨v, hstarts, _⟩ := starts_of_leading h
  have hpos : ∃ b rest k, t = b :: rest ∧ n = k + 1 := by
    cases hstarts <;> exact ⟨_, _, _, rfl, rfl⟩
  obtain ⟨b, rest, k, rfl, rfl⟩ := hpos
  rw [decode, decodeFrom, h]
  exact decodeFrom_eq k [.char c] rest

theorem decode_of_stray {b : UInt8} (h : leading (b :: t) = none) :
    decode (b :: t) = .stray b :: decode t := by
  rw [decode, decodeFrom, h]
  exact decodeFrom_eq 0 [.stray b] t

/-- Decoding loses nothing: the items of a text, written out again, are the
    text. -/
theorem flatMap_bytes_decode (t : Text) : (decode t).flatMap Item.bytes = t := by
  induction hlen : t.length using Nat.strongRecOn generalizing t with
  | _ len ih =>
    cases t with
    | nil => rfl
    | cons b rest =>
      cases h : leading (b :: rest) with
      | none =>
        rw [decode_of_stray h, List.flatMap_cons, ih rest.length (by rw [← hlen]; simp) rest rfl]
        rfl
      | some found =>
        obtain ⟨c, n⟩ := found
        obtain ⟨v, hstarts, rfl⟩ := starts_of_leading h
        have hpos : 0 < n := by cases hstarts <;> decide
        have hlt : ((b :: rest).drop n).length < len := by
          rw [List.length_drop, ← hlen]
          simp only [List.length_cons]
          omega
        rw [decode_of_leading h, List.flatMap_cons, ih _ hlt _ rfl, Item.bytes,
          hstarts.encodeChar_eq, List.take_append_drop]

/-- A text without stray bytes is the bytes of its characters. -/
theorem encode_chars (h : valid t = true) : encode (chars t) = t := by
  rw [valid, List.all_eq_true] at h
  have hbytes : ∀ i ∈ decode t, encodeChar i.toChar = i.bytes := by
    intro i hi
    cases i with
    | char c => rfl
    | stray b => exact absurd (h _ hi) Bool.false_ne_true
  rw [encode, chars, List.flatMap_map, List.flatMap_def, List.map_congr_left hbytes,
    ← List.flatMap_def, flatMap_bytes_decode]

theorem eq_of_chars_eq (ht : valid t = true) (hu : valid u = true) (h : chars t = chars u) :
    t = u := by
  rw [← encode_chars ht, h, encode_chars hu]

end ImportFinder.Utf8
