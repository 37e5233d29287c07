import ImportFinder.Proofs.Text.Numeral
import ImportFinder.Proofs.Text.Utf8
import ImportFinder.Report.Json
import Mathlib.Data.List.Basic
import Mathlib.Tactic.SplitIfs

/-!
# JSON is not ambiguous

Data is known from its JSON, if its texts are valid UTF-8 (`readable`), whatever is
written for stray bytes.

Each part of the notation shows where it ends. What is written for a character is
never the start of what is written for another one, whether or not it is escaped
(`character_append_inj`), and is no quotation mark; so a string ends at the first
quotation mark that stands for itself (`string_append_inj`). A value is told by its
first byte to be of one kind (`Json.kindOf`). A numeral does not show its end by
itself, but what follows a value does not go on with a digit: it is a comma or a
new line (`Json.Ends`).
-/

namespace ImportFinder

namespace Json

variable {c d : Char} {stray r s t u : Text}

/-! ### Strings -/

/-- The characters that are not written as they are. -/
def specials : List Char :=
  (List.range 0x20).map Char.ofNat ++
    ['"', '\\', '<', '>', '&', Char.ofNat 0x2028, Char.ofNat 0x2029]

theorem character_of_not_mem (h : c ∉ specials) : character c = Utf8.encodeChar c := by
  have hne : ∀ d ∈ specials, c ≠ d := fun d hd heq => h (heq ▸ hd)
  have hcode : ∀ n, Char.ofNat n ∈ specials → c.toNat ≠ n := fun n hn heq =>
    hne _ hn (by rw [← heq, Char.ofNat_toNat])
  have hlow : ¬ c.toNat < 0x20 := fun hlt =>
    h (List.mem_append_left _ (List.mem_map.2 ⟨c.toNat, List.mem_range.2 hlt, Char.ofNat_toNat c⟩))
  have hplain : ¬ (c.toNat < 0x20 ∨ c = '<' ∨ c = '>' ∨ c = '&' ∨ c.toNat = 0x2028 ∨
      c.toNat = 0x2029) := by
    simp [hlow, hne '<' (by decide), hne '>' (by decide), hne '&' (by decide),
      hcode 0x2028 (by decide), hcode 0x2029 (by decide)]
  rw [character, if_neg (hne _ (by decide)), if_neg (hne _ (by decide)), if_neg (hne _ (by decide)),
    if_neg (hne _ (by decide)), if_neg (hne _ (by decide)), if_neg (hcode _ (by decide)),
    if_neg (hcode _ (by decide)), if_neg hplain]

/-- What is escaped starts with a backslash. -/
theorem head_character : ∀ c ∈ specials, ∃ rest, character c = 0x5C :: rest := by
  have hall : specials.all (fun c => (character c).head? == some 0x5C) = true := by
    decide +kernel
  intro c hc
  exact List.head?_eq_some_iff.1 (beq_iff_eq.1 (List.all_eq_true.1 hall c hc))

/-- No escape is the start of another one. -/
theorem eq_of_prefix_of_special :
    ∀ c ∈ specials, ∀ d ∈ specials, character c <+: character d → c = d := by
  have hall : (specials.all fun c => specials.all fun d =>
      !(character c).isPrefixOf (character d) || c == d) = true := by
    decide +kernel
  intro c hc d hd hcd
  have hone := List.all_eq_true.1 (List.all_eq_true.1 hall c hc) d hd
  rw [List.isPrefixOf_iff_prefix.2 hcd] at hone
  exact beq_iff_eq.1 hone

theorem not_mem_of_encodeChar_append (hc : c ∉ specials) {b : UInt8} (hb : b.toNat < 0x80)
    (hmem : Char.ofNat b.toNat ∈ specials) : Utf8.encodeChar c ++ r ≠ b :: s := by
  intro h
  exact hc (Utf8.eq_of_encodeChar_append hb h ▸ hmem)

/-- What is written for a character is never the start of what is written for
    another one. -/
theorem character_append_inj (h : character c ++ r = character d ++ s) : c = d ∧ r = s := by
  have heq : c = d := by
    by_cases hc : c ∈ specials
    · by_cases hd : d ∈ specials
      · rcases List.prefix_or_prefix_of_prefix ⟨r, h⟩ (List.prefix_append _ s) with hcd | hdc
        · exact eq_of_prefix_of_special c hc d hd hcd
        · exact (eq_of_prefix_of_special d hd c hc hdc).symm
      · -- Only an escape starts with a backslash.
        obtain ⟨rest, hrest⟩ := head_character c hc
        rw [hrest, character_of_not_mem hd] at h
        exact absurd h.symm (not_mem_of_encodeChar_append hd (by decide) (by decide))
    · by_cases hd : d ∈ specials
      · obtain ⟨rest, hrest⟩ := head_character d hd
        rw [hrest, character_of_not_mem hc] at h
        exact absurd h (not_mem_of_encodeChar_append hc (by decide) (by decide))
      · rw [character_of_not_mem hc, character_of_not_mem hd] at h
        exact (Utf8.encodeChar_append_inj h).1
  subst heq
  exact ⟨rfl, List.append_cancel_left h⟩

theorem character_append_ne_quote (c : Char) : character c ++ r ≠ 0x22 :: s := by
  by_cases hc : c ∈ specials
  · obtain ⟨rest, hrest⟩ := head_character c hc
    simp [hrest]
  · rw [character_of_not_mem hc]
    exact not_mem_of_encodeChar_append hc (by decide) (by decide)

/-- Characters in front of a quotation mark are known from what is written. -/
theorem characters_append_inj {cs ds : List Char}
    (h : cs.flatMap character ++ 0x22 :: r = ds.flatMap character ++ 0x22 :: s) :
    cs = ds ∧ r = s := by
  induction cs generalizing ds with
  | nil =>
    cases ds with
    | nil => exact ⟨rfl, (List.cons.inj h).2⟩
    | cons d ds =>
      rw [List.flatMap_cons, List.append_assoc] at h
      exact absurd h.symm (character_append_ne_quote d)
  | cons c cs ih =>
    rw [List.flatMap_cons, List.append_assoc] at h
    cases ds with
    | nil => exact absurd h (character_append_ne_quote c)
    | cons d ds =>
      rw [List.flatMap_cons, List.append_assoc] at h
      obtain ⟨rfl, hmore⟩ := character_append_inj h
      obtain ⟨rfl, hrest⟩ := ih hmore
      exact ⟨rfl, hrest⟩

theorem string_append (stray t r : Text) :
    string stray t ++ r = 0x22 :: ((Utf8.decode t).flatMap (piece stray) ++ 0x22 :: r) := by
  have hquote : text "\"" = [0x22] := by decide
  rw [string, hquote]
  simp

/-- In a valid text there is nothing to be replaced. -/
theorem flatMap_piece (ht : Utf8.valid t = true) :
    (Utf8.decode t).flatMap (piece stray) = (Utf8.chars t).flatMap character := by
  rw [Utf8.chars, List.flatMap_map]
  refine List.flatMap_congr fun item hitem => ?_
  cases item with
  | char c => rfl
  | stray b => exact absurd (List.all_eq_true.1 ht _ hitem) Bool.false_ne_true

/-- A string shows where it ends, and which text it stands for. -/
theorem string_append_inj (ht : Utf8.valid t = true) (hu : Utf8.valid u = true)
    (h : string stray t ++ r = string stray u ++ s) : t = u ∧ r = s := by
  rw [string_append, string_append, flatMap_piece ht, flatMap_piece hu] at h
  obtain ⟨hchars, hrest⟩ := characters_append_inj (List.cons.inj h).2
  exact ⟨Utf8.eq_of_chars_eq ht hu hchars, hrest⟩

/-! ### Data -/

end Json

mutual

/-- The texts in a value: its strings and the names of its fields. -/
def Data.texts : Data → List Text
  | .null => []
  | .bool _ => []
  | .int _ => []
  | .str t => [t]
  | .list ds => itemTexts ds
  | .record fs => fieldTexts fs

/-- The texts in the items of a list. -/
def Data.itemTexts : List Data → List Text
  | [] => []
  | d :: ds => d.texts ++ itemTexts ds

/-- The texts in the fields of a record. -/
def Data.fieldTexts : List (Text × Data) → List Text
  | [] => []
  | f :: fs => f.1 :: (f.2.texts ++ fieldTexts fs)

end

/-- What holds of a list if it holds of its items, and of a record if it holds of
    its values, holds of all data. -/
@[elab_as_elim]
theorem Data.induction {motive : Data → Prop} (null : motive .null)
    (bool : ∀ b, motive (.bool b)) (int : ∀ n, motive (.int n)) (str : ∀ t, motive (.str t))
    (list : ∀ ds, (∀ d ∈ ds, motive d) → motive (.list ds))
    (record : ∀ fs, (∀ f ∈ fs, motive f.2) → motive (.record fs)) : ∀ d, motive d
  | .null => null
  | .bool b => bool b
  | .int n => int n
  | .str t => str t
  | .list ds => list ds fun d _ => Data.induction null bool int str list record d
  | .record fs => record fs fun f hf =>
    -- A value is smaller than its field, and the field smaller than the record.
    have : sizeOf f.2 < sizeOf fs := by
      have hlt := List.sizeOf_lt_of_mem hf
      have hfield : sizeOf f = 1 + sizeOf f.1 + sizeOf f.2 := rfl
      omega
    Data.induction null bool int str list record f.2

namespace Json

variable {stray : Text} {level : Nat} {r s : Text}

/-- What follows a value: nothing, a comma or a new line. -/
def Ends (r : Text) : Prop := ∀ b ∈ r.head?, b = 0x2C ∨ b = Text.newline

theorem Ends.isDigit (hr : Ends r) : ∀ b ∈ r.head?, Text.isDigit b = false := by
  intro b hb
  rcases hr b hb with rfl | rfl <;> decide

/-- The kind of value that a byte starts. -/
def kindOf (b : UInt8) : Nat :=
  if b = 0x6E then 0
  else if b = 0x74 then 1
  else if b = 0x66 then 2
  else if b = 0x22 then 3
  else if b = 0x5B then 4
  else if b = 0x7B then 5
  else 6

/-- The kind of a value. -/
def kind : Data → Nat
  | .null => 0
  | .bool true => 1
  | .bool false => 2
  | .str _ => 3
  | .list _ => 4
  | .record _ => 5
  | .int _ => 6

theorem kindOf_of_isDigit {b : UInt8} (h : Text.isDigit b = true) : kindOf b = 6 := by
  have hne : ∀ c, Text.isDigit c = false → b ≠ c := fun c hc heq =>
    Bool.false_ne_true (hc.symm.trans (heq ▸ h))
  simp [kindOf, hne 0x6E (by decide), hne 0x74 (by decide), hne 0x66 (by decide),
    hne 0x22 (by decide), hne 0x5B (by decide), hne 0x7B (by decide)]

theorem head_ofInt (n : Int) : ∃ b rest, Text.ofInt n = b :: rest ∧ kindOf b = 6 := by
  cases n with
  | ofNat n =>
    obtain ⟨b, rest, hb⟩ := List.exists_cons_of_ne_nil (Text.ofNat_ne_nil n)
    exact ⟨b, rest, hb, kindOf_of_isDigit (Text.isDigit_of_mem_ofNat n b (by simp [hb]))⟩
  | negSucc n => exact ⟨_, _, rfl, by decide⟩

/-- The first byte of a value tells its kind. -/
theorem head_render (stray : Text) (level : Nat) (d : Data) :
    ∃ b rest, render stray level d = b :: rest ∧ kindOf b = kind d := by
  cases d with
  | null => exact ⟨_, _, rfl, by decide⟩
  | bool b => cases b <;> exact ⟨_, _, rfl, by decide⟩
  | int n =>
    rw [render]
    exact head_ofInt n
  | str t =>
    have h := string_append stray t []
    rw [List.append_nil] at h
    exact ⟨_, _, h, rfl⟩
  | list ds => cases ds <;> exact ⟨_, _, rfl, rfl⟩
  | record fs => cases fs <;> exact ⟨_, _, rfl, rfl⟩

theorem kind_eq {d e : Data} (h : render stray level d ++ r = render stray level e ++ s) :
    kind d = kind e := by
  obtain ⟨b, rest, hb, hkind⟩ := head_render stray level d
  obtain ⟨b', rest', hb', hkind'⟩ := head_render stray level e
  rw [hb, hb'] at h
  rw [← hkind, ← hkind', (List.cons.inj h).1]

/-- An item of a list on a line of its own, in front of a text. -/
def item (stray : Text) (level : Nat) (d : Data) (r : Text) : Text :=
  line level ++ (render stray level d ++ r)

/-- A field of a record on a line of its own, in front of a text. -/
def field (stray : Text) (level : Nat) (f : Text × Data) (r : Text) : Text :=
  line level ++ (string stray f.1 ++ (text ": " ++ (render stray level f.2 ++ r)))

/-- The items or fields that are still to come, each behind a comma, in front of a
    text. -/
def following {α : Type} (write : α → Text → Text) : List α → Text → Text
  | [], r => r
  | a :: as, r => text "," ++ write a (following write as r)

theorem renderItems_append (d : Data) (ds : List Data) (r : Text) :
    renderItems stray level (d :: ds) ++ r =
      item stray level d (following (item stray level) ds r) := by
  induction ds generalizing d with
  | nil => simp [renderItems, item, following]
  | cons e ds ih => simp [renderItems, ih, item, following]

theorem renderFields_append (f : Text × Data) (fs : List (Text × Data)) (r : Text) :
    renderFields stray level (f :: fs) ++ r =
      field stray level f (following (field stray level) fs r) := by
  induction fs generalizing f with
  | nil => simp [renderFields, field, following]
  | cons g fs ih => simp [renderFields, ih, field, following]

theorem render_list_cons (d : Data) (ds : List Data) (r : Text) :
    render stray level (.list (d :: ds)) ++ r = text "[" ++ item stray (level + 1) d
      (following (item stray (level + 1)) ds (line level ++ text "]" ++ r)) := by
  rw [← renderItems_append, render]
  simp

theorem render_record_cons (f : Text × Data) (fs : List (Text × Data)) (r : Text) :
    render stray level (.record (f :: fs)) ++ r = openBrace ++ field stray (level + 1) f
      (following (field stray (level + 1)) fs (line level ++ closeBrace ++ r)) := by
  rw [← renderFields_append, render]
  simp

theorem ends_comma (r : Text) : Ends (text "," ++ r) := by
  intro b hb
  exact .inl (Option.some.inj hb).symm

theorem ends_newline (hr : r.head? = some Text.newline) : Ends r := by
  intro b hb
  exact .inr (Option.some.inj (hb.symm.trans hr))

/-- A list or record that goes on is not taken for one that ends. -/
theorem comma_append_ne (hr : r.head? = some Text.newline) (s : Text) : text "," ++ s ≠ r := by
  rintro rfl
  exact absurd (Option.some.inj hr) (by decide)

theorem ends_following {α : Type} (write : α → Text → Text) (as : List α)
    (hr : r.head? = some Text.newline) : Ends (following write as r) := by
  cases as with
  | nil => exact ends_newline hr
  | cons a as => exact ends_comma _

/-- What is still to come is known, if each item or field is known from what is
    written for it. -/
theorem following_inj {α : Type} {write : α → Text → Text} {as bs : List α}
    (hwrite : ∀ a ∈ as, ∀ b ∈ bs, ∀ r s, Ends r → Ends s → write a r = write b s → a = b ∧ r = s)
    (hr : r.head? = some Text.newline) (hs : s.head? = some Text.newline)
    (h : following write as r = following write bs s) : as = bs ∧ r = s := by
  induction as generalizing bs with
  | nil =>
    cases bs with
    | nil => exact ⟨rfl, h⟩
    | cons b bs => exact absurd h.symm (comma_append_ne hr _)
  | cons a as ih =>
    cases bs with
    | nil => exact absurd h (comma_append_ne hs _)
    | cons b bs =>
      obtain ⟨rfl, hrest⟩ := hwrite a List.mem_cons_self b List.mem_cons_self _ _
        (ends_following write as hr) (ends_following write bs hs) (List.append_cancel_left h)
      obtain ⟨rfl, hrs⟩ := ih (fun a ha b hb => hwrite a (List.mem_cons_of_mem _ ha) b
        (List.mem_cons_of_mem _ hb)) hrest
      exact ⟨rfl, hrs⟩

/-- Texts are valid UTF-8. -/
def Valid (texts : List Text) : Prop := ∀ t ∈ texts, Utf8.valid t = true

instance : DecidablePred Valid := fun texts =>
  inferInstanceAs (Decidable (∀ t ∈ texts, Utf8.valid t = true))

theorem valid_list_iff {ds : List Data} :
    Valid (Data.list ds).texts ↔ ∀ d ∈ ds, Valid d.texts := by
  rw [Data.texts]
  induction ds with
  | nil => simp [Valid, Data.itemTexts]
  | cons d ds ih =>
    rw [List.forall_mem_cons, ← ih, Valid, Data.itemTexts, List.forall_mem_append]
    rfl

theorem valid_record_iff {fs : List (Text × Data)} :
    Valid (Data.record fs).texts ↔ ∀ f ∈ fs, Utf8.valid f.1 = true ∧ Valid f.2.texts := by
  rw [Data.texts]
  induction fs with
  | nil => simp [Valid, Data.fieldTexts]
  | cons f fs ih =>
    rw [List.forall_mem_cons, ← ih, Valid, Data.fieldTexts, List.forall_mem_cons,
      List.forall_mem_append, and_assoc]
    rfl

/-- A value is known from its JSON, and where that ends. -/
def Readable (stray : Text) (d : Data) : Prop :=
  Valid d.texts → ∀ (e : Data) (level : Nat) (r s : Text), Valid e.texts → Ends r → Ends s →
    render stray level d ++ r = render stray level e ++ s → d = e ∧ r = s

theorem Readable.item_inj {d e : Data} (hread : Readable stray d) (hd : Valid d.texts)
    (he : Valid e.texts) (hr : Ends r) (hs : Ends s)
    (h : item stray level d r = item stray level e s) : d = e ∧ r = s :=
  hread hd e level r s he hr hs (List.append_cancel_left h)

theorem Readable.field_inj {f g : Text × Data} (hread : Readable stray f.2)
    (hf : Utf8.valid f.1 = true ∧ Valid f.2.texts) (hg : Utf8.valid g.1 = true ∧ Valid g.2.texts)
    (hr : Ends r) (hs : Ends s) (h : field stray level f r = field stray level g s) :
    f = g ∧ r = s := by
  obtain ⟨hkey, hvalue⟩ := string_append_inj hf.1 hg.1 (List.append_cancel_left h)
  obtain ⟨hd, hrs⟩ := hread hf.2 g.2 level r s hg.2 hr hs (List.append_cancel_left hvalue)
  exact ⟨Prod.ext hkey hd, hrs⟩

/-- Two values of one kind. -/
inductive Alike : Data → Data → Prop
  | null : Alike .null .null
  | bool (b : Bool) : Alike (.bool b) (.bool b)
  | int (m n : Int) : Alike (.int m) (.int n)
  | str (t u : Text) : Alike (.str t) (.str u)
  | list (ds es : List Data) : Alike (.list ds) (.list es)
  | record (fs gs : List (Text × Data)) : Alike (.record fs) (.record gs)

theorem alike_of_kind_eq {d e : Data} (h : kind d = kind e) : Alike d e := by
  rcases d with _ | (_ | _) | m | t | ds | fs <;> rcases e with _ | (_ | _) | n | u | es | gs <;>
    first
    | constructor
    | exact absurd h (by simp [kind])

/-- An empty list is not taken for one with items. -/
theorem render_list_nil_append_ne (d : Data) (ds : List Data) :
    render stray level (.list []) ++ r ≠ render stray level (.list (d :: ds)) ++ s := by
  intro h
  rw [render_list_cons] at h
  have hbyte : (0x5D : UInt8) = 0x0A := Option.some.inj (congrArg (·[1]?) h)
  exact absurd hbyte (by decide)

theorem render_record_nil_append_ne (f : Text × Data) (fs : List (Text × Data)) :
    render stray level (.record []) ++ r ≠ render stray level (.record (f :: fs)) ++ s := by
  intro h
  rw [render_record_cons] at h
  have hbyte : (0x7D : UInt8) = 0x0A := Option.some.inj (congrArg (·[1]?) h)
  exact absurd hbyte (by decide)

theorem readable_list {ds : List Data} (hread : ∀ d ∈ ds, Readable stray d) :
    Readable stray (.list ds) := by
  intro hds e level r s he hr hs h
  cases alike_of_kind_eq (kind_eq h) with
  | list _ es =>
    cases ds with
    | nil =>
      cases es with
      | nil => exact ⟨rfl, List.append_cancel_left h⟩
      | cons e es => exact absurd h (render_list_nil_append_ne e es)
    | cons d ds =>
      cases es with
      | nil => exact absurd h.symm (render_list_nil_append_ne d ds)
      | cons e es =>
        rw [render_list_cons, render_list_cons] at h
        rw [valid_list_iff] at hds he
        have hitems : following (item stray (level + 1)) (d :: ds) (line level ++ text "]" ++ r) =
            following (item stray (level + 1)) (e :: es) (line level ++ text "]" ++ s) :=
          congrArg (text "," ++ ·) (List.append_cancel_left h)
        obtain ⟨hlist, hrs⟩ := following_inj
          (fun a ha b hb _ _ => (hread a ha).item_inj (hds a ha) (he b hb)) rfl rfl hitems
        exact ⟨congrArg Data.list hlist, List.append_cancel_left hrs⟩

theorem readable_record {fs : List (Text × Data)} (hread : ∀ f ∈ fs, Readable stray f.2) :
    Readable stray (.record fs) := by
  intro hfs e level r s he hr hs h
  cases alike_of_kind_eq (kind_eq h) with
  | record _ gs =>
    cases fs with
    | nil =>
      cases gs with
      | nil => exact ⟨rfl, List.append_cancel_left h⟩
      | cons g gs => exact absurd h (render_record_nil_append_ne g gs)
    | cons f fs =>
      cases gs with
      | nil => exact absurd h.symm (render_record_nil_append_ne f fs)
      | cons g gs =>
        rw [render_record_cons, render_record_cons] at h
        rw [valid_record_iff] at hfs he
        have hfields :
            following (field stray (level + 1)) (f :: fs) (line level ++ closeBrace ++ r) =
              following (field stray (level + 1)) (g :: gs) (line level ++ closeBrace ++ s) :=
          congrArg (text "," ++ ·) (List.append_cancel_left h)
        obtain ⟨hlist, hrs⟩ := following_inj
          (fun a ha b hb _ _ => (hread a ha).field_inj (hfs a ha) (he b hb)) rfl rfl hfields
        exact ⟨congrArg Data.record hlist, List.append_cancel_left hrs⟩

/-- Data is known from its JSON. -/
theorem readable (stray : Text) (d : Data) : Readable stray d := by
  induction d using Data.induction with
  | list ds ih => exact readable_list ih
  | record fs ih => exact readable_record ih
  | null =>
    intro _ e level r s _ _ _ h
    cases alike_of_kind_eq (kind_eq h)
    exact ⟨rfl, List.append_cancel_left h⟩
  | bool b =>
    intro _ e level r s _ _ _ h
    cases alike_of_kind_eq (kind_eq h)
    exact ⟨rfl, List.append_cancel_left h⟩
  | int m =>
    intro _ e level r s _ hr hs h
    cases alike_of_kind_eq (kind_eq h) with
    | int _ n =>
      rw [render, render] at h
      obtain ⟨rfl, hrs⟩ := Text.ofInt_append_inj hr.isDigit hs.isDigit h
      exact ⟨rfl, hrs⟩
  | str t =>
    intro ht e level r s hu _ _ h
    cases alike_of_kind_eq (kind_eq h) with
    | str _ u =>
      rw [render, render] at h
      obtain ⟨rfl, hrs⟩ := string_append_inj (ht t (List.mem_singleton_self t))
        (hu u (List.mem_singleton_self u)) h
      exact ⟨rfl, hrs⟩

end Json

end ImportFinder
