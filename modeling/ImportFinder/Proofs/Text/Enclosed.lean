import ImportFinder.Text.Space
import Mathlib.Data.List.TakeWhile

/-!
# Pieces in their surroundings

What is cut out of a text keeps a mark of where it came from: the bytes next to
it are those at which it was cut, or it reaches up to an end of the text. A piece
is `Enclosed` in a text by a set of bytes if that is so, and pieces of pieces are
enclosed by the same bytes (`Enclosed.trans`).

* `enclosed_trimBytes`, `enclosed_trim`: what trimming leaves is enclosed by what
  is trimmed off;
* `enclosed_takeWhile`: the start of a text by the byte at which it ends;
* `enclosed_of_mem_fields`: the fields of a text by the white space between them.

White space characters may take several bytes, but each of these is a byte that
no other ASCII character has (`isSpaceByte`).
-/

namespace ImportFinder.Text

/-- A piece lies in a text between bytes that satisfy `p`, or ends of the
    text. -/
def Enclosed (p : UInt8 → Bool) (piece t : Text) : Prop :=
  ∃ front back, t = front ++ (piece ++ back) ∧ front.getLast?.all p = true ∧
    back.head?.all p = true

variable {p : UInt8 → Bool} {piece t : Text}

theorem all_or {x y : Option UInt8} (hx : x.all p = true) (hy : y.all p = true) :
    (x.or y).all p = true := by
  cases x with
  | none => exact hy
  | some b => exact hx

namespace Enclosed

theorem refl (t : Text) : Enclosed p t t := ⟨[], [], by simp, rfl, rfl⟩

/-- A piece of a piece is a piece. -/
theorem trans {inner : Text} (h : Enclosed p inner piece) (h' : Enclosed p piece t) :
    Enclosed p inner t := by
  obtain ⟨front, back, rfl, hfront, hback⟩ := h
  obtain ⟨front', back', rfl, hfront', hback'⟩ := h'
  refine ⟨front' ++ front, back ++ back', by simp, ?_, ?_⟩
  · rw [List.getLast?_append]
    exact all_or hfront hfront'
  · rw [List.head?_append]
    exact all_or hback hback'

/-- More bytes may enclose a piece. -/
theorem mono {q : UInt8 → Bool} (hpq : ∀ b, p b = true → q b = true) (h : Enclosed p piece t) :
    Enclosed q piece t := by
  obtain ⟨front, back, ht, hfront, hback⟩ := h
  have hall (x : Option UInt8) (hx : x.all p = true) : x.all q = true := by
    cases x with
    | none => rfl
    | some b => exact hpq b hx
  exact ⟨front, back, ht, hall _ hfront, hall _ hback⟩

/-- A piece is enclosed if everything around it satisfies `p`. -/
theorem of_forall {front back : Text} (ht : t = front ++ (piece ++ back))
    (hfront : ∀ b ∈ front, p b = true) (hback : ∀ b ∈ back, p b = true) :
    Enclosed p piece t := by
  refine ⟨front, back, ht, ?_, ?_⟩
  · rw [Option.all_eq_true]
    exact fun b hb => hfront b (List.mem_of_getLast? hb)
  · rw [Option.all_eq_true]
    exact fun b hb => hback b (List.mem_of_head? hb)

end Enclosed

/-! ### Trimming -/

/-- What is dropped at the start of a text satisfies the test. -/
theorem exists_eq_append_dropWhile (t : Text) :
    ∃ front, t = front ++ t.dropWhile p ∧ ∀ b ∈ front, p b = true :=
  ⟨t.takeWhile p, List.takeWhile_append_dropWhile.symm, fun _ hb => List.mem_takeWhile_imp hb⟩

/-- A text does not go on with a byte that satisfies `p`. -/
def Stops (p : UInt8 → Bool) (t : Text) : Prop := ∀ b ∈ t.head?, p b = false

theorem stops_dropWhile (t : Text) : Stops p (t.dropWhile p) := by
  intro b hb
  have hhead := List.head?_dropWhile_not p t
  rwa [Option.mem_def.1 hb] at hhead

/-- A text is cut where its bytes cease to satisfy `p`. -/
theorem takeWhile_append_of_stops {front rest : Text} (hfront : ∀ b ∈ front, p b = true)
    (hrest : Stops p rest) : (front ++ rest).takeWhile p = front := by
  rw [List.takeWhile_append_of_pos hfront]
  cases rest with
  | nil => exact List.append_nil front
  | cons b rest => rw [List.takeWhile_cons, hrest b rfl, if_neg Bool.false_ne_true, List.append_nil]

theorem dropWhile_append_of_stops {front rest : Text} (hfront : ∀ b ∈ front, p b = true)
    (hrest : Stops p rest) : (front ++ rest).dropWhile p = rest := by
  rw [List.dropWhile_append_of_pos hfront]
  cases rest with
  | nil => rfl
  | cons b rest => rw [List.dropWhile_cons, hrest b rfl, if_neg Bool.false_ne_true]

/-- What is left of a text without the bytes at its two ends that satisfy `p`. -/
structure Stripped (p : UInt8 → Bool) (t core : Text) : Prop where
  around : ∃ front back, t = front ++ (core ++ back) ∧ (∀ b ∈ front, p b = true) ∧
    ∀ b ∈ back, p b = true
  starts : Stops p core
  ends : Stops p core.reverse

theorem stripped_trimBytes (t : Text) : Stripped p t (trimBytes p t) := by
  obtain ⟨front, hfront, hdropped⟩ := exists_eq_append_dropWhile (p := p) t
  obtain ⟨back, hback, hdropped'⟩ := exists_eq_append_dropWhile (p := p) (t.dropWhile p).reverse
  have hdrop : t.dropWhile p = trimBytes p t ++ back.reverse := by
    rw [trimBytes, ← List.reverse_append, ← hback, List.reverse_reverse]
  refine ⟨⟨front, back.reverse, by rw [← hdrop, ← hfront], hdropped, fun b hb =>
    hdropped' b (List.mem_reverse.1 hb)⟩, ?_, ?_⟩
  · -- What is left starts as the text does behind its front.
    have hstops : Stops p (t.dropWhile p) := stops_dropWhile t
    rw [hdrop] at hstops
    intro b hb
    exact hstops b (by rw [List.head?_append, Option.mem_def.1 hb]; rfl)
  · rw [trimBytes, List.reverse_reverse]
    exact stops_dropWhile _

/-- Stripping a text leaves one thing, which is what trimming leaves. -/
theorem Stripped.eq_trimBytes {core : Text} (h : Stripped p t core) : core = trimBytes p t := by
  obtain ⟨front, back, rfl, hfront, hback⟩ := h.around
  cases core with
  | nil =>
    -- Nothing is left of a text of such bytes.
    have hall : ∀ b ∈ front ++ ([] ++ back), p b = true := fun b hb =>
      (List.mem_append.1 hb).elim (hfront b) (hback b)
    have hnil : (front ++ ([] ++ back)).dropWhile p = [] := List.dropWhile_eq_nil_iff.2 hall
    rw [trimBytes, hnil]
    rfl
  | cons b core =>
    have hrest : Stops p (b :: core ++ back) := h.starts
    have hends : (back.reverse ++ (b :: core).reverse).dropWhile p = (b :: core).reverse :=
      dropWhile_append_of_stops (fun c hc => hback c (List.mem_reverse.1 hc)) h.ends
    rw [trimBytes, dropWhile_append_of_stops hfront hrest, List.reverse_append, hends,
      List.reverse_reverse]

theorem enclosed_trimBytes (t : Text) : Enclosed p (trimBytes p t) t := by
  obtain ⟨front, back, ht, hfront, hback⟩ := (stripped_trimBytes (p := p) t).around
  exact .of_forall ht hfront hback

/-- The start of a text up to some byte is enclosed by that byte. -/
theorem enclosed_takeWhile {q : UInt8 → Bool} (hpq : ∀ b, q b = false → p b = true) (t : Text) :
    Enclosed p (t.takeWhile q) t := by
  refine ⟨[], t.dropWhile q, List.takeWhile_append_dropWhile.symm, rfl, ?_⟩
  -- The first byte that is not taken fails the test.
  rw [Option.all_eq_true]
  exact fun b hb => hpq b (stops_dropWhile t b hb)

/-! ### White space -/

/-- Whether a byte may belong to a white space character. -/
def isSpaceByte (b : UInt8) : Bool := isAsciiSpace b || 0x80 ≤ b

theorem isSpaceByte_of_isPairSpace {b b' : UInt8} (h : isPairSpace b b' = true) :
    isSpaceByte b = true ∧ isSpaceByte b' = true := by
  simp only [isPairSpace, Bool.and_eq_true, Bool.or_eq_true, beq_iff_eq] at h
  obtain ⟨rfl, rfl | rfl⟩ := h <;> decide

theorem isSpaceByte_of_isWideSpace {b b' b'' : UInt8} (h : isWideSpace b b' b'' = true) :
    isSpaceByte b = true ∧ isSpaceByte b' = true ∧ isSpaceByte b'' = true := by
  simp only [isWideSpace, Bool.and_eq_true, Bool.or_eq_true, beq_iff_eq, decide_eq_true_eq] at h
  rcases h with ((⟨⟨rfl, rfl⟩, rfl⟩ | ⟨⟨rfl, rfl⟩, ((h | rfl) | rfl) | rfl⟩) |
    ⟨⟨rfl, rfl⟩, rfl⟩) | ⟨⟨rfl, rfl⟩, rfl⟩
  case inl.inl.inr.inl.inl.inl => exact ⟨by decide, by decide, by simp [isSpaceByte, h.1]⟩
  all_goals decide

/-- The bytes of the white space character at the start of a text. -/
theorem isSpaceByte_of_mem_leadingSpace (t : Text) :
    ∀ b ∈ t.take (leadingSpace t), isSpaceByte b = true := by
  fun_cases leadingSpace t with
  | case1 b rest h => simp [isSpaceByte, h]
  | case2 b h b' rest h' => simpa using isSpaceByte_of_isPairSpace h'
  | case3 b h b' h' b'' rest h'' => simpa using isSpaceByte_of_isWideSpace h''
  | _ => simp_all

/-- The bytes of the white space character at the end of a text that is given
    backwards. -/
theorem isSpaceByte_of_mem_trailingSpace (t : Text) :
    ∀ b ∈ t.take (trailingSpace t), isSpaceByte b = true := by
  fun_cases trailingSpace t with
  | case1 b rest h => simp [isSpaceByte, h]
  | case2 b h b' rest h' => simpa using (isSpaceByte_of_isPairSpace h').symm
  | case3 b h b' h' b'' rest h'' => simp [isSpaceByte_of_isWideSpace h'']
  | _ => simp_all

/-- Dropping characters drops their bytes only. -/
theorem exists_eq_append_dropChars {width : Text → Nat}
    (hwidth : ∀ t : Text, ∀ b ∈ t.take (width t), p b = true) {k : Nat} {t : Text}
    (hk : ∀ b ∈ t.take k, p b = true) :
    ∃ front, t = front ++ dropChars width k t ∧ ∀ b ∈ front, p b = true := by
  induction t generalizing k with
  | nil => exact ⟨[], by cases k <;> rfl, by simp⟩
  | cons b rest ih =>
    cases k with
    | succ k =>
      rw [List.take_succ_cons, List.forall_mem_cons] at hk
      obtain ⟨front, hfront, hdropped⟩ := ih hk.2
      refine ⟨b :: front, ?_, List.forall_mem_cons.2 ⟨hk.1, hdropped⟩⟩
      rw [dropChars, List.cons_append, ← hfront]
    | zero =>
      rw [dropChars]
      split
      · exact ⟨[], rfl, by simp⟩
      next n hn =>
        -- The first byte of the character is dropped, and its other bytes follow.
        have hchar := hwidth (b :: rest)
        rw [hn, List.take_succ_cons, List.forall_mem_cons] at hchar
        obtain ⟨front, hfront, hdropped⟩ := ih hchar.2
        refine ⟨b :: front, ?_, List.forall_mem_cons.2 ⟨hchar.1, hdropped⟩⟩
        rw [List.cons_append, ← hfront]

/-- What trimming drops at the two ends of a text are bytes of white space
    characters. -/
theorem exists_around_trim (t : Text) : ∃ front back, t = front ++ (trim t ++ back) ∧
    (∀ b ∈ front, isSpaceByte b = true) ∧ ∀ b ∈ back, isSpaceByte b = true := by
  obtain ⟨front, hfront, hdropped⟩ := exists_eq_append_dropChars (k := 0) (t := t)
    isSpaceByte_of_mem_leadingSpace (by simp)
  obtain ⟨back, hback, hdropped'⟩ := exists_eq_append_dropChars (k := 0)
    (t := (trimStart t).reverse) isSpaceByte_of_mem_trailingSpace (by simp)
  have htrim : trimStart t = trim t ++ back.reverse := by
    rw [trim, trimEnd, ← List.reverse_append, ← hback, List.reverse_reverse]
  refine ⟨front, back.reverse, ?_, hdropped, fun b hb => hdropped' b (List.mem_reverse.1 hb)⟩
  rw [← htrim]
  exact hfront

theorem enclosed_trim (t : Text) : Enclosed isSpaceByte (trim t) t := by
  obtain ⟨front, back, ht, hfront, hback⟩ := exists_around_trim t
  exact .of_forall ht hfront hback

/-! ### Fields -/

/-- A field was found before, or lies in the rest of the text and in the piece
    that is being read. Bytes that are being passed belong to white space, and
    so does the one before the piece. -/
theorem enclosed_of_mem_fieldsFrom {k : Nat} {read rest field : Text} (front : Text)
    {found : List Text} (hread : k ≠ 0 → read = []) (hfront : front.getLast?.all isSpaceByte = true)
    (hk : ∀ b ∈ rest.take k, isSpaceByte b = true) (h : field ∈ fieldsFrom k read found rest) :
    field ∈ found ∨ Enclosed isSpaceByte field (front ++ (read.reverse ++ rest)) := by
  induction rest generalizing k read front found with
  | nil =>
    cases k <;>
    · rw [fieldsFrom, List.mem_reverse] at h
      split_ifs at h with hempty
      · exact .inl h
      · refine (List.mem_cons.1 h).symm.imp id ?_
        rintro rfl
        exact ⟨front, [], rfl, hfront, rfl⟩
  | cons b rest ih =>
    cases k with
    | succ k =>
      obtain rfl := hread (Nat.succ_ne_zero k)
      rw [List.take_succ_cons, List.forall_mem_cons] at hk
      have hnext := ih (front ++ [b]) (fun _ => rfl) (by simp [hk.1]) hk.2 h
      simpa using hnext
    | zero =>
      rw [fieldsFrom] at h
      split at h
      · have hnext := ih front (fun hk => absurd rfl hk) hfront (by simp) h
        simpa using hnext
      next n hn =>
        -- The piece ends at a white space character, which encloses it.
        have hchar := isSpaceByte_of_mem_leadingSpace (b :: rest)
        rw [hn, List.take_succ_cons, List.forall_mem_cons] at hchar
        have hend : Enclosed isSpaceByte read.reverse (front ++ (read.reverse ++ b :: rest)) :=
          ⟨front, b :: rest, rfl, hfront, hchar.1⟩
        rcases ih (front ++ read.reverse ++ [b]) (fun _ => rfl) (by simp [hchar.1]) hchar.2 h
          with hfound | hnext
        · split_ifs at hfound
          · exact .inl hfound
          · rcases List.mem_cons.1 hfound with rfl | hfound
            · exact .inr hend
            · exact .inl hfound
        · exact .inr (by simpa using hnext)

/-- The fields of a text lie between white space. -/
theorem enclosed_of_mem_fields {field : Text} (h : field ∈ fields t) :
    Enclosed isSpaceByte field t := by
  have hfield := enclosed_of_mem_fieldsFrom [] (fun hk => absurd rfl hk) rfl (by simp) h
  simpa using hfield

end ImportFinder.Text
