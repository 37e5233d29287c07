import ImportFinder.Proofs.Path.Parent

/-!
# Absolute paths

An absolute path leads from the root of all paths by names alone: once it is
cleaned, no component names a parent directory. So, unless it is the root itself,
it has a shorter parent, which is absolute too (`length_parent_lt`), and its base
is a proper name (`isComponent_base`).

A path that is not absolute may be taken from an absolute one, the working
directory. Whether it is cleaned before or after makes no difference
(`foldl_push_split`), hence going down by a name and taking a path from the
working directory may be exchanged (`resolve_join`).
-/

namespace ImportFinder.Path

variable {p q n work : Text}

@[simp]
theorem isAbsolute_clean (p : Text) : isAbsolute (clean p) = isAbsolute p :=
  isAbsolute_render (settled_components p)

@[simp]
theorem components_clean (p : Text) : components (clean p) = components p :=
  components_render (settled_components p)

/-- Cleaned paths are equal if they are absolute alike and have the same
    components. -/
theorem eq_of_components (hp : clean p = p) (hq : clean q = q)
    (habs : isAbsolute p = isAbsolute q) (h : components p = components q) : p = q := by
  rw [← hp, ← hq, clean, clean, habs, h]

theorem ne_nil_of_isAbsolute (hp : isAbsolute p = true) : p ≠ [] := by
  rintro rfl
  exact absurd hp (by decide)

/-! ### Up and down -/

theorem settled_concat (hn : IsComponent n) (p : Text) :
    Settled (isAbsolute p) (n :: (components p).reverse) := by
  simpa using settled_components_append (fun m hm => List.mem_singleton.1 hm ▸ hn) p

theorem clean_join (hn : IsComponent n) (p : Text) : clean (join p n) = join p n := by
  rw [join_eq_render hn]
  exact clean_render (settled_components_append (fun m hm => List.mem_singleton.1 hm ▸ hn) p)

/-- Going down by a name and up again leads back. -/
theorem parent_join (hn : IsComponent n) (p : Text) : parent (join p n) = clean p := by
  rw [join_eq_render hn, parent_render (settled_concat hn p), clean]

theorem join_ne_clean (hn : IsComponent n) (p : Text) : join p n ≠ clean p := by
  intro h
  have hlength := congrArg (fun q => (components q).length) h
  simp [components_join hn] at hlength

theorem isAbsolute_parent (hp : clean p = p) : isAbsolute (parent p) = isAbsolute p := by
  by_cases hne : parent p = p
  · rw [hne]
  · obtain ⟨absolute, cs, n, rfl, hs⟩ := exists_eq_render hp hne
    rw [parent_render hs, isAbsolute_render hs.2.2,
      isAbsolute_render (by simpa using hs)]

/-- The base of an absolute path is a proper name, as nothing lies above the
    root. -/
theorem isComponent_base (hp : clean p = p) (habs : isAbsolute p = true) (hne : parent p ≠ p) :
    IsComponent (base p) := by
  obtain ⟨absolute, cs, n, rfl, hs⟩ := exists_eq_render hp hne
  rw [isAbsolute_render (by simpa using hs)] at habs
  subst habs
  rw [base_render hs]
  obtain ⟨⟨hnil, hhere, hslash⟩, hup, _⟩ := hs
  exact ⟨hnil, hslash, hhere, fun h => absurd (hup h).1 (by decide)⟩

/-- An absolute path is longer than its parent, unless it is its own. -/
theorem length_parent_lt (hp : clean p = p) (habs : isAbsolute p = true) (hne : parent p ≠ p) :
    (parent p).length < p.length := by
  obtain ⟨absolute, cs, n, rfl, hs⟩ := exists_eq_render hp hne
  rw [isAbsolute_render (by simpa using hs)] at habs
  subst habs
  rw [parent_render hs]
  have hpos : 0 < n.length := List.length_pos_iff.2 hs.1.1
  by_cases hcs : cs = []
  · simpa [hcs, render, Text.joinWith] using hpos
  · rw [render_concat_of_ne_nil hcs]
    simp

/-- The components of an absolute path are proper names. -/
theorem isComponent_of_mem (habs : isAbsolute p = true) (hn : n ∈ components p) :
    IsComponent n := by
  have hs := settled_components p
  rw [habs] at hs
  have hmem := List.mem_reverse.2 hn
  generalize (components p).reverse = stack at hs hmem
  induction stack with
  | nil => exact absurd hmem List.not_mem_nil
  | cons c below ih =>
    obtain ⟨⟨hnil, hhere, hslash⟩, hup, hbelow⟩ := hs
    rcases List.mem_cons.1 hmem with rfl | hmem
    · exact ⟨hnil, hslash, hhere, fun h => absurd (hup h).1 (by decide)⟩
    · exact ih hbelow hmem

/-- The last component of an absolute path is its base, and the others are those
    of its parent. -/
theorem components_eq_concat (hp : clean p = p) (habs : isAbsolute p = true)
    (hne : parent p ≠ p) : components p = components (parent p) ++ [base p] := by
  have hjoin := congrArg components (join_parent_base hp hne)
  rw [components_join (isComponent_base hp habs hne)] at hjoin
  exact hjoin.symm

theorem components_eq_nil (hp : clean p = p) (hroot : parent p = p) : components p = [] := by
  rcases List.eq_nil_or_concat (components p) with hnil | ⟨cs, n, hcs⟩
  · exact hnil
  · -- A path with a last component has another parent.
    rw [List.concat_eq_append] at hcs
    have hs := settled_components p
    rw [clean] at hp
    rw [hcs] at hp hs
    have hcons : Settled (isAbsolute p) (n :: cs.reverse) := by simpa using hs
    rw [← hp, parent_render hcons] at hroot
    have hcomp := congrArg components hroot
    rw [components_render hs, components_render hcons.2.2] at hcomp
    simp at hcomp

theorem join_clean (hn : IsComponent n) (p : Text) : join (clean p) n = join p n := by
  rw [join_eq_render hn, join_eq_render hn, isAbsolute_clean, components_clean]

/-- What holds of an absolute path if it holds of its parent, unless it is its
    own, holds of every absolute path. -/
@[elab_as_elim]
theorem parent_induction {motive : (p : Text) → clean p = p → isAbsolute p = true → Prop}
    (step : ∀ p hp habs, (parent p ≠ p →
      motive (parent p) (clean_parent p) ((isAbsolute_parent hp).trans habs)) → motive p hp habs)
    (p : Text) (hp : clean p = p) (habs : isAbsolute p = true) : motive p hp habs := by
  induction hlen : p.length using Nat.strongRecOn generalizing p with
  | _ len ih =>
    refine step p hp habs fun hne => ?_
    have hlt : (parent p).length < len := hlen ▸ length_parent_lt hp habs hne
    exact ih _ hlt (parent p) _ _ rfl

theorem length_parent_le (hp : clean p = p) (habs : isAbsolute p = true) :
    (parent p).length ≤ p.length := by
  by_cases hne : parent p = p
  · exact Nat.le_of_eq (congrArg List.length hne)
  · exact Nat.le_of_lt (length_parent_lt hp habs hne)

/-! ### Paths taken from another one -/

/-- A component may be put on a stack of a relative path that is pushed as a
    whole, or pushed behind it. -/
theorem foldl_push_push {below : List Text} (hb : Settled false below) {c : Text}
    (absolute : Bool) (stack : List Text) :
    (push false below c).reverse.foldl (push absolute) stack =
      push absolute (below.reverse.foldl (push absolute) stack) c := by
  by_cases hdrop : c = [] ∨ c = here
  · unfold push
    rw [if_pos hdrop, if_pos hdrop]
  rw [not_or] at hdrop
  have hcons : ∀ d ds, (d :: ds).reverse.foldl (push absolute) stack =
      push absolute (ds.reverse.foldl (push absolute) stack) d := by simp
  by_cases hup : c = up
  · subst hup
    cases below with
    | nil => rfl
    | cons top below =>
      rw [push_up_cons]
      split_ifs with htop
      · exact hcons _ _
      · -- The name on the top is pushed and taken back.
        rw [hcons, push_name hb.1.1 hb.1.2.1 htop, push_up_cons, if_neg htop]
  · rw [push_name hdrop.1 hdrop.2 hup]
    exact hcons _ _

theorem foldl_push_foldl {pieces below : List Text} (hp : ∀ c ∈ pieces, Text.slash ∉ c)
    (hb : Settled false below) (absolute : Bool) (stack : List Text) :
    (pieces.foldl (push false) below).reverse.foldl (push absolute) stack =
      pieces.foldl (push absolute) (below.reverse.foldl (push absolute) stack) := by
  induction pieces generalizing below with
  | nil => rfl
  | cons c pieces ih =>
    rw [List.foldl_cons, List.foldl_cons,
      ih (fun d hd => hp d (List.mem_cons_of_mem _ hd)) (hb.push (hp c List.mem_cons_self)),
      foldl_push_push hb]

/-- A relative path leads to the same place after it has been cleaned. -/
theorem foldl_push_split (hq : isAbsolute q = false) (absolute : Bool) (stack : List Text) :
    (Text.split Text.slash q).foldl (push absolute) stack =
      (components q).foldl (push absolute) stack := by
  have hempty : Settled false [] := trivial
  rw [components, hq, foldl_push_foldl (fun c hc => Text.not_mem_of_mem_split hc) hempty]
  rfl

theorem components_join_relative (hp : p ≠ []) (hq : isAbsolute q = false) :
    components (join p q) =
      ((components q).foldl (push (isAbsolute p)) (components p).reverse).reverse := by
  have hstack : (components p).reverse =
      (Text.split Text.slash p).foldl (push (isAbsolute p)) [] := by
    rw [components, List.reverse_reverse]
  rw [join_of_ne_nil hp, components_clean, components, isAbsolute_append hp, Text.split_append,
    List.foldl_append, foldl_push_split hq, hstack]

theorem isAbsolute_join_of_isAbsolute (hp : isAbsolute p = true) (q : Text) :
    isAbsolute (join p q) = true := by
  rw [join_of_ne_nil (ne_nil_of_isAbsolute hp), isAbsolute_clean,
    isAbsolute_append (ne_nil_of_isAbsolute hp), hp]

theorem isAbsolute_resolve (hwork : isAbsolute work = true) (p : Text) :
    isAbsolute (resolve work p) = true := by
  unfold resolve
  split_ifs with hp
  · rw [isAbsolute_clean, hp]
  · exact isAbsolute_join_of_isAbsolute hwork p

theorem clean_resolve (hwork : isAbsolute work = true) (p : Text) :
    clean (resolve work p) = resolve work p := by
  unfold resolve
  split_ifs
  · exact clean_clean p
  · rw [join_of_ne_nil (ne_nil_of_isAbsolute hwork), clean_clean]

/-- One may go down by a name before or after a path is taken from the working
    directory. -/
theorem resolve_join (hwork : isAbsolute work = true) (hn : IsComponent n) (p : Text) :
    resolve work (join p n) = join (resolve work p) n := by
  have habs : isAbsolute (join (resolve work p) n) = true :=
    isAbsolute_join_of_isAbsolute (isAbsolute_resolve hwork p) n
  refine eq_of_components (clean_resolve hwork _) (clean_join hn _)
    ((isAbsolute_resolve hwork _).trans habs.symm) ?_
  rw [components_join hn, resolve, resolve, isAbsolute_join hn]
  split_ifs with hp
  · rw [components_clean, components_clean, components_join hn]
  · rw [Bool.not_eq_true] at hp
    have hnot : isAbsolute (join p n) = false := by rw [isAbsolute_join hn, hp]
    have hwork' := ne_nil_of_isAbsolute hwork
    rw [components_join_relative hwork' hnot, components_join_relative hwork' hp,
      components_join hn, List.foldl_append, List.foldl_cons, List.foldl_nil,
      push_name hn.1 hn.2.2.1 hn.2.2.2, List.reverse_cons]

end ImportFinder.Path
