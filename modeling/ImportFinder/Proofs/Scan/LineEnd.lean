import ImportFinder.Proofs.Matching.LineEnd
import ImportFinder.Proofs.Scan

/-!
# Line ends

Whether the lines of a file end with a line feed or with a carriage return and a
line feed makes no difference to what a scan finds in it. More generally, each of
its lines may have a carriage return more at its end or not (`SameLine`), as in
files that were edited on several systems. Nothing that a scan asks about a line
shows it, and what it counts in the whole file adds up from the lines
(`scan_congr`).
-/

namespace ImportFinder

variable {mode : MatchMode} {target : Target} {name content content' line line' : Text}

/-- A line with or without a carriage return more at its end. -/
def SameLine (line line' : Text) : Prop :=
  line' = line ∨ line' = line ++ [Text.carriageReturn]

theorem SameLine.congr {α : Type} {f : Text → α}
    (hf : ∀ line, f (line ++ [Text.carriageReturn]) = f line) (h : SameLine line line') :
    f line' = f line := by
  rcases h with rfl | rfl
  · rfl
  · exact hf line

theorem map_congr_sameLine {α : Type} {f : Text → α}
    (hf : ∀ line, f (line ++ [Text.carriageReturn]) = f line) {ls ls' : List Text}
    (h : List.Forall₂ SameLine ls ls') : ls'.map f = ls.map f := by
  induction h with
  | nil => rfl
  | cons hline _ ih => rw [List.map_cons, List.map_cons, hline.congr hf, ih]

/-- Texts with the same lines, but for carriage returns at their ends. -/
def SameLines (content content' : Text) : Prop :=
  List.Forall₂ SameLine (Text.lines content) (Text.lines content')

/-- Writing a carriage return before each line feed adds one to the end of each
    line but the last. -/
theorem sameLines_replaceByte (t : Text) : SameLines t
    (Text.replaceByte Text.newline [Text.carriageReturn, Text.newline] t) := by
  have hreturn : Text.carriageReturn ≠ Text.newline := by decide
  induction t with
  | nil => exact .cons (.inl rfl) .nil
  | cons b t ih =>
    rw [SameLines, Text.replaceByte, List.flatMap_cons]
    split_ifs with hb
    · -- The first line is empty, so the other one is a carriage return.
      rw [hb, Text.lines, Text.lines, Text.split_cons_self, List.cons_append, List.singleton_append,
        Text.split_cons_of_ne hreturn (Text.split_cons_self _)]
      exact .cons (.inr rfl) ih
    · -- The byte goes to the front of the first line of both.
      rw [SameLines, Text.replaceByte] at ih
      obtain ⟨first, more, hfirst⟩ := List.exists_cons_of_ne_nil (Text.split_ne_nil Text.newline t)
      obtain ⟨first', more', hfirst'⟩ := List.exists_cons_of_ne_nil (Text.split_ne_nil Text.newline
        (t.flatMap fun c => if c = Text.newline then [Text.carriageReturn, Text.newline] else [c]))
      rw [Text.lines, Text.lines, hfirst, hfirst', List.forall₂_cons] at ih
      rw [Text.lines, Text.lines, Text.split_cons_of_ne hb hfirst, List.singleton_append,
        Text.split_cons_of_ne hb hfirst']
      exact .cons (ih.1.imp (congrArg (b :: ·)) (congrArg (b :: ·))) ih.2

/-- A word that holds neither a carriage return nor a line feed is counted as
    often. -/
theorem countOccurrences_congr (h : SameLines content content') {word : Text}
    (hreturn : Text.carriageReturn ∉ word) (hline : Text.newline ∉ word) :
    Matching.countOccurrences .word word content' =
      Matching.countOccurrences .word word content := by
  have hmap : (Text.lines content').map (Matching.countOccurrences .word word) =
      (Text.lines content).map (Matching.countOccurrences .word word) :=
    map_congr_sameLine (Matching.countOccurrences_append_return hreturn) h
  rw [Matching.countOccurrences_eq_sum hline, Matching.countOccurrences_eq_sum hline, hmap]

theorem matchOfLine_congr (h : SameLines content content') (number : Nat)
    (hline : SameLine line line') :
    matchOfLine content' number line' = matchOfLine content number line := by
  have htrim := hline.congr (Text.trim_append_space (by decide))
  have hname := hline.congr Matching.importedName?_append_return
  rw [matchOfLine, matchOfLine, htrim, hname]
  cases himport : Matching.importedName? line with
  | none => rfl
  | some name =>
    have hreturn := Matching.carriageReturn_not_mem_importedName himport
    have honLine : Matching.countOccurrences .word name line' =
        Matching.countOccurrences .word name line :=
      hline.congr (Matching.countOccurrences_append_return hreturn)
    have hinFile := countOccurrences_congr h hreturn
      (Matching.newline_not_mem_importedName himport)
    simp only [Matching.usage, honLine, hinFile]

theorem matchesOfLines_congr (hname : Text.carriageReturn ∉ name)
    (h : SameLines content content') {ls ls' : List Text} (hls : List.Forall₂ SameLine ls ls')
    (first : Nat) : matchesOfLines mode name content' (ls'.zipIdx first) =
      matchesOfLines mode name content (ls.zipIdx first) := by
  induction hls generalizing first with
  | nil => rfl
  | @cons line line' ls ls' hline _ ih =>
    have href : Matching.isReference mode name line' = Matching.isReference mode name line :=
      hline.congr (Matching.isReference_append_return hname)
    have hmatch := matchOfLine_congr h (first + 1) hline
    have hrest := ih (first + 1)
    simp only [matchesOfLines, List.zipIdx_cons, List.filterMap_cons, href, hmatch] at hrest ⊢
    rw [hrest]

/-- What a scan finds does not depend on carriage returns at the ends of lines,
    if the name that it looks for holds none. -/
theorem scan_congr (hname : Text.carriageReturn ∉ target.name) (h : SameLines content content')
    (path : Text) : scan mode target path content' = scan mode target path content := by
  have hlines : scanLines mode target.name content' = scanLines mode target.name content :=
    matchesOfLines_congr hname h h 0
  by_cases hnil : scanLines mode target.name content = []
  · rw [scan_of_eq_nil hnil, scan_of_eq_nil (hlines.trans hnil)]
  · rw [scan_of_ne_nil hnil, scan_of_ne_nil (hlines ▸ hnil), hlines]

/-- What a scan finds in a file with a carriage return before each line feed is
    what it finds without them: the same record, and so with matches or without
    for both. -/
theorem scan_replaceByte_newline (hname : Text.carriageReturn ∉ target.name)
    (path content : Text) :
    scan mode target path
        (Text.replaceByte Text.newline [Text.carriageReturn, Text.newline] content) =
      scan mode target path content :=
  scan_congr hname (sameLines_replaceByte content) path

/-- A file that has carriage returns at the ends of some lines already. -/
def returnsSample : Text := text "import a from './u'\r\na()\n// './u'\r"

theorem scan_replaceByte_newline_sample : Text.carriageReturn ∉ text "u" ∧
    (scan .path ⟨text "u", []⟩ [] returnsSample).hits =
      [⟨1, text "import a from './u'", text "a", 1, 2, false⟩] ∧
    scan .path ⟨text "u", []⟩ []
        (Text.replaceByte Text.newline [Text.carriageReturn, Text.newline] returnsSample) =
      scan .path ⟨text "u", []⟩ [] returnsSample := by
  have hname : Text.carriageReturn ∉ text "u" := by decide
  exact ⟨hname, by decide +kernel, scan_replaceByte_newline hname [] returnsSample⟩

end ImportFinder
