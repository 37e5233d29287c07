import ImportFinder.Proofs.Path.Components

/-!
# Paths and their parents

Cleaning a path twice is cleaning it once, so cleaned paths are those made of
settled components. Such a path is either a place without a parent of its own
(`.` or `/`), or its last component can be taken off and put back:

* `parent_render`, `base_render`: the parent is made of the components before
  the last one, and the base is the last one;
* `join_parent_base`: a path is reached from its parent by its base. This holds
  also of `..` and `../..`, whose base is not the name of anything below.
-/

namespace ImportFinder.Path

variable {absolute : Bool} {cs : List Text} {n p : Text}

/-! ### Cleaned paths -/

theorem clean_render (hs : Settled absolute cs.reverse) :
    clean (render absolute cs) = render absolute cs := by
  rw [clean, isAbsolute_render hs, components_render hs]

@[simp]
theorem clean_clean (p : Text) : clean (clean p) = clean p :=
  clean_render (settled_components p)

theorem render_ne_nil (hs : Settled absolute cs.reverse) : render absolute cs ≠ [] := by
  intro hnil
  have hcs := components_render hs
  rw [hnil] at hcs
  subst hcs
  revert hnil
  cases absolute <;> decide

theorem isAbsolute_append (hp : p ≠ []) (q : Text) : isAbsolute (p ++ q) = isAbsolute p := by
  obtain ⟨b, p, rfl⟩ := List.exists_cons_of_ne_nil hp
  rfl

/-- A slash at the end makes an empty piece, which is dropped. -/
theorem clean_append_slash (hp : p ≠ []) : clean (p ++ [Text.slash]) = clean p := by
  rw [clean, components, isAbsolute_append hp, Text.split_append, List.foldl_append]
  rfl

@[simp]
theorem clean_parent (p : Text) : clean (parent p) = parent p := by
  unfold parent
  split
  · exact clean_clean _
  · decide

/-! ### The last component taken off -/

theorem render_concat_of_ne_nil (hcs : cs ≠ []) :
    render absolute (cs ++ [n]) = render absolute cs ++ Text.slash :: n := by
  cases absolute <;> simp [render, hcs, Text.joinWith_concat hcs]

theorem base_render (hs : Settled absolute (n :: cs.reverse)) :
    base (render absolute (cs ++ [n])) = n := by
  obtain ⟨front, hfront, hend⟩ := render_concat absolute cs n
  rw [hfront, base_append hs.1.1 hs.1.2.2 hend]

theorem parent_render_nil : parent (render absolute []) = render absolute [] := by
  cases absolute <;> decide

theorem parent_append (hn : Text.slash ∉ n) (front : Text) :
    parent (front ++ Text.slash :: n) = clean (front ++ [Text.slash]) := by
  rw [parent, Text.splitLast_append hn]

theorem parent_of_not_mem (hn : Text.slash ∉ n) : parent n = here := by
  rw [parent, Text.splitLast_of_not_mem hn]

theorem parent_render (hs : Settled absolute (n :: cs.reverse)) :
    parent (render absolute (cs ++ [n])) = render absolute cs := by
  obtain ⟨⟨_, _, hslash⟩, _, hcs⟩ := hs
  cases cs with
  | nil =>
    -- A single component lies below the root, or below the directory itself.
    have hjoin : Text.joinWith [Text.slash] ([] ++ [n]) = n := by simp [Text.joinWith]
    cases absolute with
    | true =>
      rw [render, if_pos rfl, hjoin]
      exact parent_append hslash []
    | false =>
      rw [render, if_neg Bool.false_ne_true, hjoin]
      exact parent_of_not_mem hslash
  | cons c cs =>
    rw [render_concat_of_ne_nil (List.cons_ne_nil c cs), parent_append hslash,
      clean_append_slash (render_ne_nil hcs), clean_render hcs]

theorem join_render (hs : Settled absolute (n :: cs.reverse)) :
    join (render absolute cs) n = render absolute (cs ++ [n]) := by
  obtain ⟨⟨_, _, hslash⟩, _, hcs⟩ := id hs
  have hne := render_ne_nil hcs
  -- What lies before the name is read back, and the name is pushed upon it.
  have hread := List.reverse_eq_iff.1 (components_render hcs)
  rw [isAbsolute_render hcs] at hread
  rw [join_of_ne_nil hne, clean, components, isAbsolute_append hne, isAbsolute_render hcs,
    Text.split_append, Text.split_of_not_mem hslash, List.foldl_append, hread, List.foldl_cons,
    List.foldl_nil, hs.push_eq, List.reverse_cons, List.reverse_reverse]

/-- A cleaned path has a last component, unless it is its own parent. -/
theorem exists_eq_render (hp : clean p = p) (hne : parent p ≠ p) :
    ∃ absolute cs n, p = render absolute (cs ++ [n]) ∧ Settled absolute (n :: cs.reverse) := by
  have hs := settled_components p
  rw [clean] at hp
  rcases List.eq_nil_or_concat (components p) with hnil | ⟨cs, n, hcs⟩
  · rw [← hp, hnil] at hne
    exact absurd parent_render_nil hne
  · rw [List.concat_eq_append] at hcs
    rw [hcs, List.reverse_append, List.reverse_singleton, List.singleton_append] at hs
    exact ⟨isAbsolute p, cs, n, by rw [← hcs, hp], hs⟩

/-- A cleaned path is reached from its parent by its base, unless it is its own
    parent. -/
theorem join_parent_base (hp : clean p = p) (hne : parent p ≠ p) :
    join (parent p) (base p) = p := by
  obtain ⟨absolute, cs, n, rfl, hs⟩ := exists_eq_render hp hne
  rw [parent_render hs, base_render hs, join_render hs]

end ImportFinder.Path
