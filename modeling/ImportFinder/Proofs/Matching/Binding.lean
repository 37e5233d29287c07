import ImportFinder.Proofs.Matching.Grammar
import ImportFinder.Proofs.Matching.Occurrence

/-!
# Where an imported identifier stands

The identifier that an import statement binds is cut out of its line in several
steps: the binding out of the statement, the first entry out of a group, the
local name out of the entry. Every cut is made at bytes that belong to no word.
So the identifier occurs as a word on the line that imports it
(`occurs_importedName`), and being an identifier it lies on one line
(`newline_not_mem_importedName`).
-/

namespace ImportFinder.Matching

variable {t line binding name rest : Text}

/-- Whether a byte belongs to no word. -/
def isBreak (b : UInt8) : Bool := !isWordByte b

theorem all_isBreak (x : Option UInt8) : x.all isBreak = !x.any isWordByte := by
  cases x <;> rfl

/-- A token occurs as a word where it is enclosed by bytes that belong to no
    word. -/
theorem occurs_word_iff {token : Text} :
    occurs .word token t = true ↔ token ≠ [] ∧ Text.Enclosed isBreak token t := by
  simp only [occurs_iff, Text.Enclosed, Boundary.accepts, all_isBreak, Bool.and_eq_true]

/-! ### Bytes that belong to no word -/

theorem isWordByte_eq_false (b : UInt8) (h : isGap b = true) : isWordByte b = false := by
  simp only [isGap, Bool.or_eq_true, beq_iff_eq] at h
  rcases h with (((rfl | rfl) | rfl) | rfl) | rfl <;> decide

theorem isBreak_of_isPadding {b : UInt8} (h : isPadding b = true) : isBreak b = true := by
  simp only [isPadding, Bool.or_eq_true, beq_iff_eq] at h
  rcases h with ((rfl | rfl) | rfl) | rfl <;> decide

theorem isBreak_of_isSpaceByte {b : UInt8} (h : Text.isSpaceByte b = true) :
    isBreak b = true := by
  simp only [Text.isSpaceByte, Text.isAsciiSpace, isBreak, isWordByte, Bool.or_eq_true,
    Bool.and_eq_true, Bool.not_eq_true', Bool.or_eq_false_iff, Bool.and_eq_false_iff, beq_iff_eq,
    beq_eq_false_iff_ne, decide_eq_true_eq, decide_eq_false_iff_not, UInt8.le_iff_toNat_le,
    ← UInt8.toNat_inj, ne_eq] at h ⊢
  simp only [UInt8.reduceToNat] at h ⊢
  omega

/-! ### Identifiers -/

theorem isIdentifierByte_of_mem (h : isIdentifier name = true) :
    ∀ b ∈ name, isIdentifierByte b = true := by
  cases name with
  | nil => simp
  | cons b rest =>
    rw [isIdentifier, Bool.and_eq_true, List.all_eq_true] at h
    exact List.forall_mem_cons.2 ⟨isIdentifierByte_of_isIdentifierStart h.1, h.2⟩

theorem ne_nil_of_isIdentifier (h : isIdentifier name = true) : name ≠ [] := by
  rintro rfl
  exact absurd h (by decide)

theorem newline_not_mem_of_isIdentifier (h : isIdentifier name = true) :
    Text.newline ∉ name :=
  fun hmem => absurd (isIdentifierByte_of_mem h _ hmem) (by decide)

/-! ### The binding of a statement -/

/-- The binding of a statement stands between gaps, or before a comma. -/
theorem Statement.enclosed (h : Statement binding line) : Text.Enclosed isBreak binding line := by
  cases h with
  | @intro start gap second gap' rest _ hgap hne _ hsecond hgap' hne' _ =>
    have hstops : Text.Stops isWordByte (second ++ (gap' ++ (text "from" ++ rest))) :=
      hsecond.stops isWordByte_eq_false rfl hgap' hne' _
    refine ⟨start ++ (text "import" ++ gap), second ++ (gap' ++ (text "from" ++ rest)), by simp, ?_,
      by rw [all_isBreak, any_isWordByte_iff.2 hstops, Bool.not_false]⟩
    rw [List.getLast?_append, List.getLast?_append, List.getLast?_eq_some_getLast hne,
      Option.some_or, Option.some_or, Option.all_some, isBreak,
      isWordByte_eq_false _ (hgap _ (List.getLast_mem hne)), Bool.not_false]

/-! ### The identifier -/

/-- The first entry of a group is cut out at padding, white space and a comma. -/
theorem enclosed_firstEntry (group : Text) : Text.Enclosed isBreak (firstEntry group) group := by
  have hcomma (b : UInt8) (hb : (b != 0x2C) = false) : isBreak b = true := by
    rw [bne_eq_false_iff_eq] at hb
    rw [hb]
    decide
  have hspace (t : Text) := (Text.enclosed_trim t).mono fun _ => isBreak_of_isSpaceByte
  have hpadding (t : Text) :=
    (Text.enclosed_trimBytes (p := isPadding) t).mono fun _ => isBreak_of_isPadding
  exact (hpadding _).trans ((hspace _).trans ((Text.enclosed_takeWhile hcomma _).trans
    (hpadding group)))

theorem enclosed_localName (entry : Text) : Text.Enclosed isBreak (localName entry) entry := by
  rw [localName]
  split
  next _ as_ name hfields =>
    split_ifs
    · have hmem : name ∈ Text.fields entry := by simp [hfields]
      exact (Text.enclosed_of_mem_fields hmem).mono fun _ => isBreak_of_isSpaceByte
    · exact .refl entry
  · exact .refl entry

/-- An imported identifier is cut out of its line at bytes that belong to no
    word. -/
theorem importedName?_eq_some (h : importedName? line = some name) :
    isIdentifier name = true ∧ Text.Enclosed isBreak name line := by
  obtain ⟨binding, hbinding, -⟩ := Option.bind_eq_some_iff.1 h
  have hline := statement_of_importBinding? hbinding
  have hname := hline.importedName?_eq_some_iff.1 h
  refine ⟨hname.isIdentifier, ?_⟩
  cases hline.isBinding with
  | group hgroup =>
    rw [((named_group_iff hgroup).1 hname).1]
    exact ((enclosed_localName _).trans (enclosed_firstEntry _)).trans hline.enclosed
  | identifier hident =>
    rw [(named_identifier_iff hident).1 hname]
    exact hline.enclosed

/-- An imported identifier occurs as a word on the line that imports it. -/
theorem occurs_importedName (h : importedName? line = some name) :
    occurs .word name line = true :=
  occurs_word_iff.2
    ⟨ne_nil_of_isIdentifier (importedName?_eq_some h).1, (importedName?_eq_some h).2⟩

theorem newline_not_mem_importedName (h : importedName? line = some name) :
    Text.newline ∉ name :=
  newline_not_mem_of_isIdentifier (importedName?_eq_some h).1

end ImportFinder.Matching
