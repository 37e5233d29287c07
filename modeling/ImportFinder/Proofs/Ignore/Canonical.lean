import ImportFinder.Proofs.Ignore
import ImportFinder.Proofs.Text.Trim
import Mathlib.Data.List.Induction

/-!
# Ignore sets as sets

Raw entries come from several places, with white space around them, blank, and more
than once. The set that is made of them has a form of its own (`Canonical`): its
entries are trimmed and not blank, no two are equal, and they come in the order in
which they were first given. This determines them (`canonical_iff`), and what has that
form already stays as it is (`ofList_entries`).

For the names that are passed over, not even the order matters: a name is passed over
if some raw entry excludes it (`ignores_ofList_iff`). So more raw entries are the union
of what fewer of them exclude, and an ignore file that cannot be read is as good as
none (`ofList_canonical`).
-/

namespace ImportFinder.IgnoreSet

open Text

variable {raws es es' : List Text}

/-! ### The form of a set -/

/-- Entries are kept in the order of their first occurrences. -/
theorem pairwise_idxOf_keep (es : List Text) :
    (es.foldl keep []).reverse.Pairwise fun d e => es.idxOf d < es.idxOf e := by
  induction es using List.reverseRecOn with
  | nil => exact .nil
  | append_singleton es e ih =>
    have hmem {d : Text} (hd : d ∈ (es.foldl keep []).reverse) : d ∈ es :=
      ((mem_foldl_keep_iff.1 (List.mem_reverse.1 hd)).resolve_left List.not_mem_nil).2
    -- Where the kept entries first occurred does not change.
    have hold : (es.foldl keep []).reverse.Pairwise fun d d' =>
        (es ++ [e]).idxOf d < (es ++ [e]).idxOf d' :=
      ih.imp_of_mem fun hd hd' hlt => by
        rwa [List.idxOf_append_of_mem (hmem hd), List.idxOf_append_of_mem (hmem hd')]
    rw [List.foldl_concat]
    by_cases hdrop : e = [] ∨ e ∈ es.foldl keep []
    · rwa [keep_of_dropped hdrop]
    · rw [not_or] at hdrop
      rw [keep_of_new hdrop.1 hdrop.2, List.reverse_cons, List.pairwise_append]
      refine ⟨hold, List.pairwise_singleton _ _, fun d hd e' he' => ?_⟩
      obtain rfl := List.mem_singleton.1 he'
      -- What is new did not occur before.
      have hnew : e' ∉ es := fun he => hdrop.2 (mem_foldl_keep_iff.2 (.inr ⟨hdrop.1, he⟩))
      rw [List.idxOf_append_of_mem (hmem hd), List.idxOf_append_of_notMem hnew]
      exact Nat.lt_add_right _ (List.idxOf_lt_length_of_mem (hmem hd))

/-- The entries of a set that was made of raw ones. -/
structure Canonical (raws entries : List Text) : Prop where
  trimmed : ∀ e ∈ entries, trim e = e
  not_blank : ∀ e ∈ entries, e ≠ []
  nodup : entries.Nodup
  /-- They are what is left of the raw entries. -/
  mem_iff : ∀ e, e ∈ entries ↔ e ≠ [] ∧ ∃ raw ∈ raws, trim raw = e
  /-- They come in the order in which they were first given. -/
  ordered : entries.Pairwise fun d e => (raws.map trim).idxOf d < (raws.map trim).idxOf e

theorem canonical_ofList (raws : List Text) : Canonical raws (ofList raws).entries := by
  have hordered : (ofList raws).entries.Pairwise fun d e =>
      (raws.map trim).idxOf d < (raws.map trim).idxOf e := pairwise_idxOf_keep (raws.map trim)
  exact {
    trimmed := fun e he => by
      obtain ⟨_, raw, _, rfl⟩ := mem_ofList_iff.1 he
      exact trim_trim raw
    not_blank := fun e he => (mem_ofList_iff.1 he).1
    nodup := by
      refine List.nodup_iff_pairwise_ne.2 (hordered.imp fun hlt heq => ?_)
      rw [heq] at hlt
      exact Nat.lt_irrefl _ hlt
    mem_iff := fun e => mem_ofList_iff
    ordered := hordered }

/-- There is one such list of entries only: the first occurrences put them in order. -/
theorem Canonical.unique (h : Canonical raws es) (h' : Canonical raws es') : es = es' := by
  have hperm : es.Perm es' := (List.perm_ext_iff_of_nodup h.nodup h'.nodup).2 fun e =>
    (h.mem_iff e).trans (h'.mem_iff e).symm
  exact hperm.eq_of_pairwise (fun _ _ _ _ hlt hgt => absurd hgt (Nat.lt_asymm hlt)) h.ordered
    h'.ordered

theorem canonical_iff : Canonical raws es ↔ es = (ofList raws).entries :=
  ⟨fun h => h.unique (canonical_ofList raws), fun h => h ▸ canonical_ofList raws⟩

/-- Entries in the form of a set are those of the set that is made of them. -/
theorem Canonical.self (h : Canonical raws es) : Canonical es es where
  trimmed := h.trimmed
  not_blank := h.not_blank
  nodup := h.nodup
  mem_iff e := by
    constructor
    · exact fun he => ⟨h.not_blank e he, e, he, h.trimmed e he⟩
    · rintro ⟨_, raw, hraw, rfl⟩
      rwa [h.trimmed raw hraw]
  ordered := by
    have hmap : es.map trim = es := (List.map_congr_left h.trimmed).trans (List.map_id es)
    rw [hmap, List.pairwise_iff_getElem]
    intro i j hi hj hlt
    rwa [h.nodup.idxOf_getElem i hi, h.nodup.idxOf_getElem j hj]

theorem ofList_entries (raws : List Text) : ofList (ofList raws).entries = ofList raws :=
  congrArg IgnoreSet.mk (canonical_iff.1 (canonical_ofList raws).self).symm

/-! ### What a set excludes -/

/-- A name is passed over if what is left of some raw entry lies in it, or it in that. -/
theorem ignores_ofList_iff {name : Text} : (ofList raws).ignores name = true ↔
    name ≠ [] ∧ ∃ raw ∈ raws, trim raw ≠ [] ∧
      (occursIn name (trim raw) = true ∨ occursIn (trim raw) name = true) := by
  rw [ignores, Bool.and_eq_true, List.any_eq_true]
  refine and_congr (by simp) ⟨?_, ?_⟩
  · rintro ⟨e, he, hocc⟩
    obtain ⟨hne, raw, hraw, rfl⟩ := mem_ofList_iff.1 he
    exact ⟨raw, hraw, hne, by simpa using hocc⟩
  · rintro ⟨raw, hraw, hne, hocc⟩
    exact ⟨trim raw, mem_ofList_iff.2 ⟨hne, raw, hraw, rfl⟩, by simpa using hocc⟩

/-- More raw entries exclude what the ones or the others do. -/
theorem ignores_ofList_append (few more : List Text) (name : Text) :
    (ofList (few ++ more)).ignores name =
      ((ofList few).ignores name || (ofList more).ignores name) := by
  rw [Bool.eq_iff_iff, Bool.or_eq_true, ignores_ofList_iff, ignores_ofList_iff, ignores_ofList_iff,
    ← and_or_left, ← exists_or]
  simp only [List.mem_append, or_and_right]

theorem ignores_ofList_congr {others : List Text} (h : ∀ raw, raw ∈ others ↔ raw ∈ raws)
    (name : Text) : (ofList others).ignores name = (ofList raws).ignores name := by
  rw [Bool.eq_iff_iff]
  simp only [ignores_ofList_iff, h]

theorem load_fst_of_error {tree : Tree} {ignoreFile : Text} {f : Failure}
    (h : tree.read ignoreFile = .error f) (extra : List Text) :
    (load tree ignoreFile extra).1 = (load tree [] extra).1 := by
  have hnone : fromFile tree ignoreFile = [] := by
    rw [fromFile, h]
    split_ifs <;> rfl
  rw [load_fst, load_fst, hnone]
  rfl

/-- Raw entries make a set: its entries are their canonical form and make the same set
    again, and the names that it excludes are those that some raw entry excludes, with
    no regard to their order and repetition. For the set of a search, an ignore file
    that is missing or cannot be read is like none. -/
theorem ofList_canonical (raws : List Text) :
    (∀ entries, Canonical raws entries ↔ entries = (ofList raws).entries) ∧
    ofList (ofList raws).entries = ofList raws ∧
    (∀ more name, (ofList (raws ++ more)).ignores name =
      ((ofList raws).ignores name || (ofList more).ignores name)) ∧
    (∀ others, (∀ raw, raw ∈ others ↔ raw ∈ raws) →
      ∀ name, (ofList others).ignores name = (ofList raws).ignores name) ∧
    ∀ tree ignoreFile f, tree.read ignoreFile = .error f →
      (load tree ignoreFile raws).1 = (load tree [] raws).1 :=
  ⟨fun _ => canonical_iff, ofList_entries raws, ignores_ofList_append raws,
    fun _ h => ignores_ofList_congr h, fun _ _ _ h => load_fst_of_error h raws⟩

/-- Entries that only differ in the white space around them are one entry. -/
example : (ofList [text " lib/", text " ", text "docs", text "lib/", text "\tdocs"]).entries =
    [text "lib/", text "docs"] := by
  decide +kernel

/-- A tree in which nothing stands. -/
def bareTree : Tree where
  stat _ := .error (.cause .notExist)
  list _ := .error (.cause .notExist)
  read _ := .error (.cause .notExist)

theorem ofList_canonical_sample :
    (ofList [text "docs", text " lib/"]).ignores (text "lib") =
      (ofList [text " lib/", text "docs", text " lib/"]).ignores (text "lib") ∧
    (load bareTree (text ".gitignore") [text " lib/", text "docs", text " lib/"]).1 =
      (load bareTree [] [text " lib/", text "docs", text " lib/"]).1 := by
  obtain ⟨_, _, _, hsame, hload⟩ := ofList_canonical [text " lib/", text "docs", text " lib/"]
  have hmem (raw : Text) : raw ∈ [text "docs", text " lib/"] ↔
      raw ∈ [text " lib/", text "docs", text " lib/"] := by
    simp only [List.mem_cons, List.not_mem_nil, or_false]
    tauto
  exact ⟨hsame _ hmem _, hload bareTree _ (.cause .notExist) rfl⟩

end ImportFinder.IgnoreSet
