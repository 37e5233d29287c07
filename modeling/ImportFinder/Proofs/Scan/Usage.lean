import ImportFinder.Proofs.Matching.Binding
import ImportFinder.Proofs.Matching.Count
import ImportFinder.Proofs.Scan
import Mathlib

/-!
# Unused imports

A match counts the identifier that its line imports twice: on the line and in
the whole file, by two searches that know nothing of each other. The counts agree
because those on all lines add up to that in the file, and the line that imports
an identifier holds it (`ImportTold`). So the line accounts for every occurrence
exactly if no other line of the file holds the identifier as a word
(`usage_of_mem_hits`).
-/

namespace ImportFinder

/-- What a match tells of an identifier that its line imports. -/
structure ImportTold (content line name : Text) (m : Match) : Prop where
  name_eq : m.name = name
  onLine_eq : m.onLine = Matching.countOccurrences .word name line
  one_le_onLine : 1 ≤ m.onLine
  onLine_le_inFile : m.onLine ≤ m.inFile
  /-- The occurrences in the file are those on its lines. -/
  inFile_eq : m.inFile =
    (((Text.lines content).map (Matching.countOccurrences .word name)).sum : Nat)
  /-- The identifier is unused if it occurs on no other line. -/
  unused_iff : m.unused = true ↔ ∀ (i : Nat) (other : Text),
    (Text.lines content)[i]? = some other → (i + 1 : Int) ≠ m.line →
      Matching.hasWord name other = false

/-- What a match tells of a line that imports no identifier. -/
structure NoImportTold (m : Match) : Prop where
  name_eq : m.name = []
  onLine_eq : m.onLine = 0
  inFile_eq : m.inFile = 0
  unused_eq : m.unused = false

variable {mode : MatchMode} {target : Target} {path content line name : Text}

theorem sum_map_eq_zero {α : Type*} {f : α → Nat} {l : List α} :
    (l.map f).sum = 0 ↔ ∀ x ∈ l, f x = 0 := by
  rw [List.sum_eq_zero_iff, List.forall_mem_map]

/-- A sum is no more than one of its terms if the other terms are zero. -/
theorem sum_map_le_iff {α : Type*} {f : α → Nat} {l : List α} {x : α} {i : Nat}
    (h : l[i]? = some x) :
    (l.map f).sum ≤ f x ↔ ∀ j y, l[j]? = some y → j ≠ i → f y = 0 := by
  induction l generalizing i with
  | nil => simp at h
  | cons a l ih =>
    rw [List.map_cons, List.sum_cons]
    cases i with
    | zero =>
      obtain rfl : a = x := by simpa using h
      constructor
      · intro hsum j y hj hne
        obtain ⟨j, rfl⟩ := Nat.exists_eq_succ_of_ne_zero hne
        rw [List.getElem?_cons_succ] at hj
        exact sum_map_eq_zero.1 (by omega) y (List.mem_of_getElem? hj)
      · intro hall
        have hzero : (l.map f).sum = 0 := sum_map_eq_zero.2 fun y hy => by
          obtain ⟨j, hj⟩ := List.getElem?_of_mem hy
          exact hall (j + 1) y hj (Nat.succ_ne_zero j)
        omega
    | succ i =>
      rw [List.getElem?_cons_succ] at h
      have hle : f x ≤ (l.map f).sum := List.single_le_sum (fun _ _ => Nat.zero_le _) _
        (List.mem_map_of_mem (List.mem_of_getElem? h))
      constructor
      · intro hsum j y hj hne
        cases j with
        | zero =>
          obtain rfl : a = y := by simpa using hj
          omega
        | succ j => exact (ih h).1 (by omega) j y hj (by omega)
      · intro hall
        have ha := hall 0 a rfl (by omega)
        have hrest := (ih h).2 fun j y hj hne => hall (j + 1) y hj (by omega)
        omega

/-- A line holds a word if and only if the word is counted there. -/
theorem hasWord_eq_false_iff : Matching.hasWord name line = false ↔
    Matching.countOccurrences .word name line = 0 := by
  rw [Matching.hasWord, ← Bool.not_eq_true, Matching.occurs_iff_pos, Nat.not_lt, Nat.le_zero]

/-- The match of a line that imports an identifier. -/
theorem matchOfLine_of_some (number : Nat) (hname : Matching.importedName? line = some name) :
    matchOfLine content number line = {
      line := number
      content := Text.trim line
      name
      onLine := Matching.countOccurrences .word name line
      inFile := Matching.countOccurrences .word name content
      unused := Matching.countOccurrences .word name content == 0 ||
        Matching.countOccurrences .word name content ≤
          Matching.countOccurrences .word name line } := by
  have hne : name.isEmpty = false := List.isEmpty_eq_false_iff.2
    (Matching.ne_nil_of_isIdentifier (Matching.importedName?_eq_some hname).1)
  simp only [matchOfLine, hname, Matching.usage, hne]
  rfl

theorem countOccurrences_importedName (content : Text)
    (hname : Matching.importedName? line = some name) :
    Matching.countOccurrences .word name content =
      ((Text.lines content).map (Matching.countOccurrences .word name)).sum :=
  Matching.countOccurrences_eq_sum (Matching.newline_not_mem_importedName hname) content

/-- The line that imports an identifier accounts for every occurrence if no other
    line holds the identifier. -/
theorem countOccurrences_le_iff {i : Nat} (hline : (Text.lines content)[i]? = some line)
    (hname : Matching.importedName? line = some name) :
    Matching.countOccurrences .word name content ≤ Matching.countOccurrences .word name line ↔
      ∀ (j : Nat) (other : Text), (Text.lines content)[j]? = some other → j ≠ i →
        Matching.hasWord name other = false := by
  rw [countOccurrences_importedName content hname, sum_map_le_iff hline]
  simp only [hasWord_eq_false_iff]

/-- A match tells how often and where the identifier occurs that its line
    imports. -/
theorem importTold {i : Nat} (hline : (Text.lines content)[i]? = some line)
    (hname : Matching.importedName? line = some name) :
    ImportTold content line name (matchOfLine content (i + 1) line) := by
  have hpos : 0 < Matching.countOccurrences .word name line :=
    Matching.occurs_iff_pos.1 (Matching.occurs_importedName hname)
  have hle : Matching.countOccurrences .word name line ≤
      Matching.countOccurrences .word name content := by
    rw [countOccurrences_importedName content hname]
    exact List.single_le_sum (fun _ _ => Nat.zero_le _) _
      (List.mem_map_of_mem (List.mem_of_getElem? hline))
  -- So the file does not hold the identifier zero times.
  have hzero : (Matching.countOccurrences .word name content == 0) = false :=
    beq_eq_false_iff_ne.2 (by omega)
  rw [matchOfLine_of_some (i + 1) hname, hzero, Bool.false_or]
  exact {
    name_eq := rfl
    onLine_eq := rfl
    one_le_onLine := Int.ofNat_le.2 hpos
    onLine_le_inFile := Int.ofNat_le.2 hle
    inFile_eq := congrArg Int.ofNat (countOccurrences_importedName content hname)
    unused_iff := by
      have hnumber (j : Nat) : (j + 1 : Int) ≠ (i + 1 : Nat) ↔ j ≠ i := by omega
      refine decide_eq_true_iff.trans ((countOccurrences_le_iff hline hname).trans ?_)
      simp only [hnumber] }

theorem noImportTold (number : Nat) (hname : Matching.importedName? line = none) :
    NoImportTold (matchOfLine content number line) := by
  have hmatch : matchOfLine content number line =
      { line := number, content := Text.trim line } := by
    rw [matchOfLine, hname]
  rw [hmatch]
  exact ⟨rfl, rfl, rfl, rfl⟩

/-- A match of a scan belongs to the line with its number. -/
theorem exists_line_of_mem_hits {m : Match} (hm : m ∈ (scan mode target path content).hits) :
    ∃ (i : Nat) (line : Text), (Text.lines content)[i]? = some line ∧
      m = matchOfLine content (i + 1) line := by
  rw [hits_scan, scanLines_eq] at hm
  obtain ⟨⟨line, number⟩, hmem, rfl⟩ := List.mem_map.1 hm
  rw [referenceLines, List.mem_filter, List.mk_mem_zipIdx_iff_le_and_getElem?_sub] at hmem
  obtain ⟨⟨hnumber, hline⟩, -⟩ := hmem
  exact ⟨number - 1, line, hline, by rw [Nat.sub_add_cancel hnumber]⟩

/-- What a match tells of an imported identifier agrees with the lines of the
    file, and where no identifier is imported it tells nothing. -/
theorem usage_of_mem_hits {m : Match} (hm : m ∈ (scan mode target path content).hits) :
    ∃ (i : Nat) (line : Text), (Text.lines content)[i]? = some line ∧ m.line = i + 1 ∧
      match Matching.importedName? line with
      | some name => ImportTold content line name m
      | none => NoImportTold m := by
  obtain ⟨i, line, hline, rfl⟩ := exists_line_of_mem_hits hm
  refine ⟨i, line, hline, matchOfLine_line (i + 1) line, ?_⟩
  split
  next name hname => exact importTold hline hname
  next hname => exact noImportTold (i + 1) hname

/-- A file with two imports, of which the second is unused. -/
def importsSample : Text :=
  text "import $ from './u'\n$$ + $a\nimport \x7b p as q \x7d from './u'"

theorem usage_of_mem_hits_sample : ∃ used ∈ (scan .path ⟨text "u", []⟩ [] importsSample).hits,
    ∃ unused ∈ (scan .path ⟨text "u", []⟩ [] importsSample).hits,
      used.inFile = 3 ∧ unused.unused = true ∧
      (∃ (i : Nat) (line : Text), (Text.lines importsSample)[i]? = some line ∧
        used.line = i + 1 ∧ match Matching.importedName? line with
          | some name => ImportTold importsSample line name used
          | none => NoImportTold used) ∧
      ∃ (i : Nat) (line : Text), (Text.lines importsSample)[i]? = some line ∧
        unused.line = i + 1 ∧ match Matching.importedName? line with
          | some name => ImportTold importsSample line name unused
          | none => NoImportTold unused := by
  have hused : (⟨1, text "import $ from './u'", text "$", 1, 3, false⟩ : Match) ∈
      (scan .path ⟨text "u", []⟩ [] importsSample).hits := by decide +kernel
  have hunused : (⟨3, text "import \x7b p as q \x7d from './u'", text "q", 1, 1, true⟩ : Match) ∈
      (scan .path ⟨text "u", []⟩ [] importsSample).hits := by decide +kernel
  exact ⟨_, hused, _, hunused, rfl, rfl, usage_of_mem_hits hused, usage_of_mem_hits hunused⟩

end ImportFinder
