import ImportFinder.Log.Template
import Mathlib.Data.List.TakeDrop
import Mathlib.Data.List.TakeWhile
import Mathlib.Tactic.SplitIfs

/-!
# Templates with plain directives

The templates of the program have directives of a verb alone, one for every value. For
these nothing of what a template can do wrong comes up, and the values just take the
places of the directives:

* `readLayout_of_verb`: a verb alone leaves the layout as it is;
* `fill_template`: a template is filled with what its verbs make of the values;
* `consoleLine_template`: the console, which fills the line with its mark and its end,
  shows the message that is recorded.
-/

namespace ImportFinder.Log.Template

variable {before after t : Text} {verb : UInt8} {values : List Value} {next fuel : Nat}

/-- A directive of a verb alone, with the value for it and the text behind it. -/
structure Slot where
  verb : UInt8
  value : Value
  after : Text

/-- The percent sign, with which a directive starts. -/
abbrev percent : UInt8 := 0x25

/-- The verbs of the program. -/
def verbs : Text := text "dqsv"

/-- The slot has one of these verbs, and no other directive behind it. -/
def Slot.Plain (s : Slot) : Prop := s.verb ∈ verbs ∧ percent ∉ s.after

/-- The character of a verb. -/
def Slot.letter (s : Slot) : Char := Char.ofNat s.verb.toNat

/-- What the verb makes of the value. -/
def Slot.shown (s : Slot) : Text := (({} : Layout).forVerb s.letter).write s.letter s.value

/-- The template with some slots behind a text. -/
def template (before : Text) (slots : List Slot) : Text :=
  before ++ slots.flatMap fun s => percent :: s.verb :: s.after

/-- The text with the values in their places. -/
def filled (before : Text) (slots : List Slot) : Text :=
  before ++ slots.flatMap fun s => s.shown ++ s.after

/-! ### One directive -/

theorem eq_of_mem_verbs (h : verb ∈ verbs) :
    verb = 0x64 ∨ verb = 0x71 ∨ verb = 0x73 ∨ verb = 0x76 := by
  have hverbs : verbs = [0x64, 0x71, 0x73, 0x76] := by decide
  simpa [hverbs] using h

/-- No flag, number, width or precision stands in front of a verb. -/
theorem readLayout_of_verb (h : verb ∈ verbs) (values : List Value) (rest : Text) (next : Nat) :
    Reading.readLayout values { rest := verb :: rest, next, reordered := false } =
      { rest := verb :: rest, next, reordered := false } := by
  rcases eq_of_mem_verbs h with rfl | rfl | rfl | rfl <;> rfl

theorem verb?_cons (h : verb ∈ verbs) (rest : Text) :
    verb? (verb :: rest) = some (Char.ofNat verb.toNat, rest) := by
  rcases eq_of_mem_verbs h with rfl | rfl | rfl | rfl <;> rfl

theorem letter_ne_percent (h : verb ∈ verbs) : Char.ofNat verb.toNat ≠ '%' := by
  rcases eq_of_mem_verbs h with rfl | rfl | rfl | rfl <;> decide

@[simp]
theorem writeText_default (t : Text) : ({} : Layout).writeText t = t := by
  simp [Layout.writeText, Layout.cut, Layout.pad, Layout.padTo, Layout.padding]

/-- A text is shown as it is, be it as a text or as any value. -/
theorem shown_text (h : verb = 0x73 ∨ verb = 0x76) : (Slot.mk verb (.str t) after).shown = t := by
  rcases h with rfl | rfl
  · exact writeText_default t
  · exact writeText_default t

theorem bne_percent (hbefore : percent ∉ before) : ∀ b ∈ before, (b != percent) = true :=
  fun _ hb => bne_iff_ne.2 fun heq => hbefore (heq ▸ hb)

theorem span_percent (hbefore : percent ∉ before) (rest : Text) :
    (before ++ percent :: rest).span (· != percent) = (before, percent :: rest) := by
  rw [List.span_eq_takeWhile_dropWhile, List.takeWhile_append_of_pos (bne_percent hbefore),
    List.dropWhile_append_of_pos (bne_percent hbefore)]
  simp

/-- A text without directives is left as it is, when all values have been taken. -/
theorem fillFrom_text (hbefore : percent ∉ before) (hvalues : values.drop next = []) :
    fillFrom values (fuel + 1) next false before = before := by
  rw [fillFrom, List.span_eq_takeWhile_dropWhile,
    List.takeWhile_eq_self_iff.2 (bne_percent hbefore),
    List.dropWhile_eq_nil_iff.2 (bne_percent hbefore), hvalues]
  simp [leftOver]

/-- A directive of a verb alone takes the next value. -/
theorem fillFrom_slot {s : Slot} {more : List Value} (hbefore : percent ∉ before)
    (hs : s.verb ∈ verbs) (hvalues : values.drop next = s.value :: more) (rest : Text) :
    fillFrom values (fuel + 1) next false (before ++ percent :: s.verb :: rest) =
      before ++ (s.shown ++ fillFrom values fuel (next + 1) false rest) := by
  rw [fillFrom, span_percent hbefore]
  dsimp only
  rw [readLayout_of_verb hs]
  dsimp only
  rw [verb?_cons hs]
  dsimp only
  rw [if_neg (letter_ne_percent hs), hvalues]
  rfl

/-! ### All directives -/

section

variable {slots : List Slot}

/-- Every value takes the place of its directive. More text may follow. -/
theorem fillFrom_template (hbefore : percent ∉ before)
    (hslots : ∀ s ∈ slots, s.Plain) (hafter : percent ∉ after)
    (hvalues : values.drop next = slots.map (·.value)) (hfuel : slots.length < fuel) :
    fillFrom values fuel next false (template before slots ++ after) =
      filled before slots ++ after := by
  induction slots generalizing before next fuel with
  | nil =>
    obtain ⟨fuel, rfl⟩ : ∃ k, fuel = k + 1 := ⟨fuel - 1, by simp at hfuel; omega⟩
    have hnone : percent ∉ before ++ after := by simp [hbefore, hafter]
    simpa [template, filled] using fillFrom_text hnone hvalues
  | cons s slots ih =>
    obtain ⟨fuel, rfl⟩ : ∃ k, fuel = k + 1 := ⟨fuel - 1, by omega⟩
    obtain ⟨hs, hslots⟩ := List.forall_mem_cons.1 hslots
    have hmore : values.drop (next + 1) = slots.map (·.value) := by
      rw [← List.drop_drop, hvalues]
      rfl
    -- What follows the directive is a template again, behind its own text.
    have hrest : template before (s :: slots) ++ after =
        before ++ percent :: s.verb :: (template s.after slots ++ after) := by
      simp [template]
    rw [hrest, fillFrom_slot hbefore hs.1 hvalues, ih hs.2 hslots hmore (by simpa using hfuel)]
    simp [filled]

theorem length_le_template (before : Text) (slots : List Slot) :
    slots.length ≤ (template before slots).length := by
  rw [template, List.length_append]
  induction slots with
  | nil => exact Nat.zero_le _
  | cons s slots ih =>
    rw [List.flatMap_cons, List.length_append, List.length_cons, List.length_cons]
    omega

/-- A template is filled with what its verbs make of the values. -/
theorem fill_template (hbefore : percent ∉ before) (hslots : ∀ s ∈ slots, s.Plain) :
    fill (template before slots) (slots.map (·.value)) = filled before slots := by
  have hafter : percent ∉ ([] : Text) := List.not_mem_nil
  have hall := fillFrom_template hbefore hslots hafter List.drop_zero
    (Nat.lt_succ_of_le (length_le_template before slots))
  rwa [List.append_nil, List.append_nil] at hall

/-- The entry of a message from a template. -/
theorem ofTemplate_template (level : Level) (before : Text) (slots : List Slot)
    (hbefore : percent ∉ before) (hslots : ∀ s ∈ slots, s.Plain) :
    Entry.ofTemplate level (template before slots) (slots.map (·.value)) =
      ⟨level, filled before slots⟩ :=
  congrArg (Entry.mk level) (fill_template hbefore hslots)

/-- The console, which fills its mark and the end of the line as well, shows the message
    that is recorded. -/
theorem consoleLine_template (hbefore : percent ∉ before)
    (hslots : ∀ s ∈ slots, s.Plain) (hsome : slots ≠ []) (verbose : Bool) (level : Level) :
    consoleLine verbose level (template before slots) (slots.map (·.value)) =
      (Entry.ofTemplate level (template before slots) (slots.map (·.value))).console verbose := by
  have hmark : percent ∉ level.mark ++ before := by
    have : percent ∉ level.mark := by cases level <;> decide
    simp [this, hbefore]
  have hline : level.mark ++ template before slots ++ [Text.newline] =
      template (level.mark ++ before) slots ++ [Text.newline] := by
    simp [template]
  have hfuel : slots.length <
      (template (level.mark ++ before) slots ++ [Text.newline]).length + 1 := by
    have := length_le_template (level.mark ++ before) slots
    rw [List.length_append]
    omega
  rw [consoleLine, Entry.console, Entry.ofTemplate, fill_template hbefore hslots]
  split_ifs with hshown hnone
  · exact absurd (List.map_eq_nil_iff.1 (List.isEmpty_iff.1 hnone)) hsome
  · rw [hline, fill, fillFrom_template hmark hslots (by decide) List.drop_zero hfuel]
    simp [filled]
  · rfl

end

end ImportFinder.Log.Template
