import ImportFinder.Ignore
import Mathlib.Data.List.Basic

/-!
# Membership in ignore sets

An ignore set is made by a pass over raw entries, which it trims and of which it
keeps the first of each. What matters for a search is only which entries are in
it: neither their order nor how often they were given. So more raw entries never
let a name through that fewer keep out.

* `mem_ofList_iff`: what is in a set, by the raw entries;
* `ignores_mono`: larger sets ignore more names;
* `mem_load_iff`: what is in the set of a search, by where it comes from.
-/

namespace ImportFinder.IgnoreSet

/-- Adds an entry to those that are kept, of which the last comes first. -/
def keep (kept : List Text) (e : Text) : List Text :=
  if e.isEmpty || kept.contains e then kept else e :: kept

theorem ofList_eq (entries : List Text) :
    (ofList entries).entries = ((entries.map Text.trim).foldl keep []).reverse := rfl

/-- A blank entry is dropped, and so is one that is kept already. -/
theorem keep_of_dropped {kept : List Text} {e : Text} (h : e = [] ∨ e ∈ kept) :
    keep kept e = kept := by
  rw [keep, if_pos]
  simpa using h

theorem keep_of_new {kept : List Text} {e : Text} (hne : e ≠ []) (hnew : e ∉ kept) :
    keep kept e = e :: kept := by
  rw [keep, if_neg]
  simp [hne, hnew]

theorem mem_keep_iff {kept : List Text} {e d : Text} :
    d ∈ keep kept e ↔ d ∈ kept ∨ d ≠ [] ∧ d = e := by
  by_cases hdrop : e = [] ∨ e ∈ kept
  · rw [keep_of_dropped hdrop]
    refine (or_iff_left_of_imp ?_).symm
    rintro ⟨hne, rfl⟩
    exact hdrop.resolve_left hne
  · rw [not_or] at hdrop
    rw [keep_of_new hdrop.1 hdrop.2, List.mem_cons, or_comm]
    exact or_congr_right (iff_and_self.2 fun he => he ▸ hdrop.1)

theorem mem_foldl_keep_iff {entries kept : List Text} {d : Text} :
    d ∈ entries.foldl keep kept ↔ d ∈ kept ∨ d ≠ [] ∧ d ∈ entries := by
  induction entries generalizing kept with
  | nil => simp
  | cons e entries ih =>
    rw [List.foldl_cons, ih, mem_keep_iff, or_assoc, ← and_or_left, List.mem_cons]

/-- A set holds what is left of raw entries when they are trimmed, if anything
    is. -/
theorem mem_ofList_iff {entries : List Text} {d : Text} :
    d ∈ (ofList entries).entries ↔ d ≠ [] ∧ ∃ raw ∈ entries, Text.trim raw = d := by
  rw [ofList_eq, List.mem_reverse, mem_foldl_keep_iff, List.mem_map]
  exact or_iff_right List.not_mem_nil

/-- A larger set ignores more names. -/
theorem ignores_mono {small large : IgnoreSet}
    (h : ∀ e ∈ small.entries, e ∈ large.entries) {name : Text}
    (hi : small.ignores name = true) : large.ignores name = true := by
  rw [ignores, Bool.and_eq_true, List.any_eq_true] at hi ⊢
  obtain ⟨hne, e, he, hocc⟩ := hi
  exact ⟨hne, e, h e he, hocc⟩

/-- The entries that an ignore file contributes. -/
def fromFile (tree : Tree) (ignoreFile : Text) : List Text :=
  if ignoreFile.isEmpty then []
  else match tree.read ignoreFile with
    | .ok content => parse content
    | .error _ => []

theorem load_fst (tree : Tree) (ignoreFile : Text) (extra : List Text) :
    (load tree ignoreFile extra).1 = ofList (builtin ++ extra ++ fromFile tree ignoreFile) := by
  rw [load, fromFile]
  split_ifs with hname
  · simp
  · cases tree.read ignoreFile with
    | ok content => rfl
    | error f =>
      dsimp only
      split_ifs <;> simp

/-- The set of a search holds what is left of the built-in entries, those of the
    request and those of the ignore file. -/
theorem mem_load_iff {tree : Tree} {ignoreFile : Text} {extra : List Text} {d : Text} :
    d ∈ (load tree ignoreFile extra).1.entries ↔ d ≠ [] ∧
      ∃ raw, (raw ∈ builtin ∨ raw ∈ extra ∨ raw ∈ fromFile tree ignoreFile) ∧
        Text.trim raw = d := by
  simp only [load_fst, mem_ofList_iff, List.mem_append, or_assoc]

/-- More entries of a request ignore more names. -/
theorem ignores_load_mono {tree : Tree} {ignoreFile : Text} {few many : List Text}
    (h : ∀ e ∈ few, e ∈ many) {name : Text}
    (hi : (load tree ignoreFile few).1.ignores name = true) :
    (load tree ignoreFile many).1.ignores name = true := by
  refine ignores_mono (fun d hd => ?_) hi
  obtain ⟨hne, raw, hraw, htrim⟩ := mem_load_iff.1 hd
  exact mem_load_iff.2 ⟨hne, raw, hraw.imp_right (Or.imp_left (h raw)), htrim⟩

end ImportFinder.IgnoreSet
