import ImportFinder.Proofs.Failure
import ImportFinder.Proofs.Path.Components
import ImportFinder.Proofs.Text.Enclosed
import ImportFinder.Target
import Mathlib.Tactic.SplitIfs

/-!
# Targets as they are typed

A target is printed as the user would type it, so it should be what one gets by
typing what is printed. It was divided from a *base* (`ofBase`), the last component
of what was typed before: at the last dot, unless that is the first byte. What is
printed is mostly that base, but not always what it takes to get it again:

* a dot at the end of the base is not printed, as no extension follows it. What is
  left is divided at an earlier dot, or is the lone dot that names a directory;
* white space at an edge of the base may have stood beside a slash. What is typed
  is trimmed before it is divided.

A target comes back exactly if nothing of this happens (`parse_render_eq_iff`), and
all of it does for some arguments (`parse_render_ne`).
-/

namespace ImportFinder.Target

open Text

variable {b name ext raw s : Text} {t : Target}

/-- The target of a single component. -/
def ofBase (b : Text) : Target :=
  match splitLast dot b with
  | some (name, ext) => if name.isEmpty then { name := b } else { name, extension := ext }
  | none => { name := b }

theorem ofBase_append (hname : name ≠ []) (hext : dot ∉ ext) :
    ofBase (name ++ dot :: ext) = ⟨name, ext⟩ := by
  rw [ofBase, splitLast_append hext]
  simp [hname]

/-- A base without a dot behind its first byte is all name. -/
theorem ofBase_of_not_mem (h : dot ∉ b.tail) : ofBase b = ⟨b, []⟩ := by
  rw [ofBase]
  cases hsplit : splitLast dot b with
  | none => rfl
  | some parts =>
    obtain ⟨before, after⟩ := parts
    obtain ⟨rfl, -⟩ := splitLast_eq_some_iff.1 hsplit
    cases before with
    | nil => rfl
    | cons c before => exact absurd (List.mem_append_right _ List.mem_cons_self) h

/-- A base has no dot behind its first byte, or is divided at the last one. -/
theorem not_mem_tail_or (b : Text) :
    dot ∉ b.tail ∨ ∃ name ext, b = name ++ dot :: ext ∧ name ≠ [] ∧ dot ∉ ext := by
  by_cases h : dot ∈ b.tail
  · right
    obtain ⟨before, ext, htail, hext⟩ := exists_append_of_mem h
    cases b with
    | nil => exact absurd h List.not_mem_nil
    | cons c rest =>
      rw [List.tail_cons] at htail
      exact ⟨c :: before, ext, by rw [htail, List.cons_append], List.cons_ne_nil _ _, hext⟩
  · exact .inl h

theorem parse_eq_ok_iff : parse raw = .ok t ↔ trim raw ≠ [] ∧
    Path.base (trim raw) ≠ Path.here ∧ Path.base (trim raw) ≠ [slash] ∧
    ofBase (Path.base (trim raw)) = t := by
  rw [parse]
  dsimp only
  split_ifs with hblank hplace
  · exact iff_of_false nofun fun h => h.1 (by simpa using hblank)
  · exact iff_of_false nofun fun h => hplace.elim h.2.1 h.2.2.1
  · have hne : trim raw ≠ [] := by simpa using hblank
    rw [not_or] at hplace
    rw [ofBase]
    cases hsplit : splitLast dot (Path.base (trim raw)) with
    | none => simp [hne, hplace]
    | some parts =>
      dsimp only
      split_ifs <;> simp [hne, hplace]

/-- A single component is its own base. -/
theorem parse_eq_ok_iff_of_not_mem (hs : slash ∉ s) : parse s = .ok t ↔
    trim s ≠ [] ∧ trim s ≠ Path.here ∧ ofBase (trim s) = t := by
  obtain ⟨front, back, hsplit, _, _⟩ := exists_around_trim s
  have hnone : slash ∉ trim s := fun h => hs (by
    rw [hsplit]
    exact List.mem_append_right _ (List.mem_append_left _ h))
  rw [parse_eq_ok_iff]
  refine and_congr_right fun hne => ?_
  have hbase : Path.base (trim s) = trim s := Path.base_append hne hnone (.inl rfl)
  rw [hbase]
  refine and_congr_right fun _ => and_iff_right fun h => ?_
  rw [h] at hnone
  exact hnone List.mem_cons_self

/-- What is known of a target that was parsed. -/
structure Parsed (t : Target) : Prop where
  name_ne_nil : t.name ≠ []
  dot_not_mem : dot ∉ t.extension
  slash_not_mem : slash ∉ t.render

theorem render_of_eq_nil (h : t.extension = []) : t.render = t.name := by
  simp [render, h]

theorem render_of_ne_nil (h : t.extension ≠ []) : t.render = t.name ++ dot :: t.extension := by
  simp [render, h]

theorem parsed_of_parse (h : parse raw = .ok t) : Parsed t := by
  obtain ⟨_, _, hslash, rfl⟩ := parse_eq_ok_iff.1 h
  obtain ⟨hne, hnone⟩ := (Path.base_eq_slash_or (trim raw)).resolve_left hslash
  rcases not_mem_tail_or (Path.base (trim raw)) with hdot | ⟨name, ext, hbase, hname, hext⟩
  · rw [ofBase_of_not_mem hdot]
    exact ⟨hne, List.not_mem_nil, by rwa [render_of_eq_nil rfl]⟩
  · rw [hbase, ofBase_append hname hext]
    refine ⟨hname, hext, fun hmem => hnone ?_⟩
    rw [hbase]
    by_cases hnil : ext = []
    · rw [render_of_eq_nil hnil] at hmem
      exact List.mem_append_left _ hmem
    · rwa [render_of_ne_nil hnil] at hmem

/-- What is printed for a target is divided into it again, if there is an
    extension, or else no dot behind the first byte of the name. -/
theorem Parsed.ofBase_render (h : Parsed t) (hdot : t.extension = [] → dot ∉ t.name.tail) :
    ofBase t.render = t := by
  by_cases hnil : t.extension = []
  · rw [render_of_eq_nil hnil, ofBase_of_not_mem (hdot hnil), ← hnil]
  · rw [render_of_ne_nil hnil, ofBase_append h.name_ne_nil h.dot_not_mem]

theorem Parsed.render_ne_nil (h : Parsed t) : t.render ≠ [] := by
  rw [render]
  split_ifs
  · exact h.name_ne_nil
  · simp

theorem Parsed.render_eq_here_iff (h : Parsed t) :
    t.render = Path.here ↔ t.extension = [] ∧ t.name = Path.here := by
  by_cases hnil : t.extension = []
  · rw [render_of_eq_nil hnil, and_iff_right hnil]
  · refine iff_of_false (fun heq => ?_) fun heq => hnil heq.1
    -- With an extension there are at least three bytes.
    have hlength := congrArg List.length heq
    have hname := List.length_pos_iff.2 h.name_ne_nil
    have hext := List.length_pos_iff.2 hnil
    rw [render_of_ne_nil hnil, List.length_append, List.length_cons, Path.here,
      List.length_singleton] at hlength
    omega

/-- Of a target that is divided from a text only a dot at the end is not printed. -/
theorem eq_render_ofBase_or (b : Text) :
    b = (ofBase b).render ∧ ((ofBase b).extension = [] → dot ∉ (ofBase b).name.tail) ∨
      b = (ofBase b).render ++ [dot] := by
  rcases not_mem_tail_or b with hdot | ⟨name, ext, rfl, hname, hext⟩
  · rw [ofBase_of_not_mem hdot]
    exact .inl ⟨rfl, fun _ => hdot⟩
  · rw [ofBase_append hname hext]
    by_cases hnil : ext = []
    · subst hnil
      exact .inr rfl
    · have hrender : render ⟨name, ext⟩ = name ++ dot :: ext := render_of_ne_nil hnil
      exact .inl ⟨hrender.symm, fun h => absurd h hnil⟩

theorem length_trim_le (s : Text) : (trim s).length ≤ s.length := by
  obtain ⟨front, back, hsplit, _, _⟩ := exists_around_trim s
  have hlength := congrArg List.length hsplit
  simp only [List.length_append] at hlength
  omega

/-- A target that was parsed comes back from what is printed for it exactly if no
    white space stands at an edge of that, and without an extension its name is
    not a lone dot and has no dot behind its first byte. -/
theorem parse_render_eq_iff (h : parse raw = .ok t) : parse t.render = .ok t ↔
    trim t.render = t.render ∧
      (t.extension = [] → t.name ≠ Path.here ∧ dot ∉ t.name.tail) := by
  have hparsed := parsed_of_parse h
  rw [parse_eq_ok_iff_of_not_mem hparsed.slash_not_mem]
  constructor
  · rintro ⟨_, hhere, hbase⟩
    rcases eq_render_ofBase_or (trim t.render) with ⟨htrim, hdot⟩ | htrim
    · rw [hbase] at htrim hdot
      refine ⟨htrim, fun hnil => ⟨fun hname => hhere ?_, hdot hnil⟩⟩
      rw [htrim, hparsed.render_eq_here_iff]
      exact ⟨hnil, hname⟩
    · -- What is left after trimming is not longer than what was printed.
      rw [hbase] at htrim
      have hle := length_trim_le t.render
      rw [htrim, List.length_append, List.length_singleton] at hle
      omega
  · rintro ⟨htrim, hname⟩
    rw [htrim]
    refine ⟨hparsed.render_ne_nil, fun hhere => ?_, ?_⟩
    · obtain ⟨hnil, hlone⟩ := hparsed.render_eq_here_iff.1 hhere
      exact (hname hnil).1 hlone
    · exact hparsed.ofBase_render fun hnil => (hname hnil).2

theorem parse_render_eq_iff_sample :
    parse (text " src/.a.b.js ") = .ok ⟨text ".a.b", text "js"⟩ ∧
    parse (render ⟨text ".a.b", text "js"⟩) = .ok ⟨text ".a.b", text "js"⟩ := by
  have hparse : parse (text " src/.a.b.js ") = .ok ⟨text ".a.b", text "js"⟩ :=
    eq_ok_of_toOption (by decide +kernel)
  have hext : text "js" ≠ [] := by decide
  exact ⟨hparse, (parse_render_eq_iff hparse).2
    ⟨by decide +kernel, fun hnil => absurd hnil hext⟩⟩

/-- What is printed for `a.b.` is another target, what is printed for `..` is none,
    and what is printed for a name behind a slash and a blank is that name without
    the blank. -/
theorem parse_render_ne :
    (parse (text "a.b.") = .ok ⟨text "a.b", []⟩ ∧
      parse (render ⟨text "a.b", []⟩) = .ok ⟨text "a", text "b"⟩) ∧
    (parse (text "..") = .ok ⟨text ".", []⟩ ∧
      parse (render ⟨text ".", []⟩) = .error (.cause .emptyTarget)) ∧
    parse (text "x/ a.js") = .ok ⟨text " a", text "js"⟩ ∧
      parse (render ⟨text " a", text "js"⟩) = .ok ⟨text "a", text "js"⟩ := by
  refine ⟨⟨eq_ok_of_toOption ?_, eq_ok_of_toOption ?_⟩, ⟨eq_ok_of_toOption ?_, rfl⟩,
    eq_ok_of_toOption ?_, eq_ok_of_toOption ?_⟩ <;> decide +kernel

end ImportFinder.Target
