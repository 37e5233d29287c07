import ImportFinder.Proofs.Path.Mention

/-!
# Paths as they are shown

A path is shown as seen from the working directory when it lies there, and as it is
otherwise. Seen from an absolute path, another one is reached by going up to the place
where the two part, and down from there (`relative?_eq_some`). Going down from the
working directory leads back to the path (`resolve_below`), so what is shown may be
typed.

Whether a path has to be left by going up is seen on its first two bytes, and names
may start with two dots as well. So a path that goes on below the working directory by
such a name is not shortened, although it lies inside (`display_dots`). All others are
(`display_inside_unless_dots`).
-/

namespace ImportFinder.Path

variable {work p : Text} {as bs ups downs : List Text}

/-! ### Where two paths part -/

/-- Two lists share what is dropped, and part behind it. -/
structure Parted (as bs ups downs : List Text) : Prop where
  shared : ∃ common, as = common ++ ups ∧ bs = common ++ downs
  apart : ∀ u ∈ ups.head?, ∀ d ∈ downs.head?, u ≠ d

theorem parted_dropCommon (as bs : List Text) :
    Parted as bs (dropCommon as bs).1 (dropCommon as bs).2 := by
  induction as generalizing bs with
  | nil => exact ⟨⟨[], rfl, rfl⟩, fun _ hu => absurd hu (by simp [dropCommon])⟩
  | cons a as ih =>
    cases bs with
    | nil => exact ⟨⟨[], rfl, rfl⟩, fun _ _ _ hd => absurd hd (by simp [dropCommon])⟩
    | cons b bs =>
      by_cases hab : a = b
      · subst hab
        rw [dropCommon, if_pos rfl]
        obtain ⟨⟨common, has, hbs⟩, hapart⟩ := ih bs
        exact ⟨⟨a :: common, by rw [List.cons_append, ← has], by rw [List.cons_append, ← hbs]⟩,
          hapart⟩
      · rw [dropCommon, if_neg hab]
        refine ⟨⟨[], rfl, rfl⟩, fun u hu d hd => ?_⟩
        obtain rfl : a = u := by simpa using hu
        obtain rfl : b = d := by simpa using hd
        exact hab

/-- Nothing is left of the first list exactly if the second one starts with it. -/
theorem Parted.eq_nil_iff (h : Parted as bs ups downs) : ups = [] ↔ as <+: bs := by
  obtain ⟨common, rfl, rfl⟩ := h.shared
  rw [List.prefix_append_right_inj]
  constructor
  · rintro rfl
    exact List.nil_prefix
  · intro hprefix
    cases ups with
    | nil => rfl
    | cons u ups =>
      obtain ⟨rest, rfl⟩ := hprefix
      exact absurd rfl (h.apart u rfl u rfl)

theorem Parted.append_eq (h : Parted as bs [] downs) : as ++ downs = bs := by
  obtain ⟨common, has, hbs⟩ := h.shared
  rw [has, hbs, List.append_nil]

/-! ### Seen from a directory -/

/-- From an absolute path every other one is seen: up as often as needed, then down. -/
theorem relative?_eq_some (hwork : isAbsolute work = true) (hp : isAbsolute p = true)
    (hne : clean p ≠ clean work) : ∃ ups downs, Parted (components work) (components p) ups downs ∧
      relative? work p = some (Text.joinWith [Text.slash] (ups.map (fun _ => up) ++ downs)) := by
  have hparted := parted_dropCommon (components work) (components p)
  refine ⟨_, _, hparted, ?_⟩
  -- A cleaned absolute path does not name the directory itself.
  have hhere : clean p ≠ here := fun h => by
    have habs := isAbsolute_clean p
    rw [h, hp] at habs
    exact absurd habs (by decide)
  -- Nor does it hold the name of the parent directory.
  have hup : (dropCommon (components work) (components p)).1.head? ≠ some up := fun h => by
    obtain ⟨common, hcomp, _⟩ := hparted.shared
    have hmem : up ∈ components work := by
      rw [hcomp]
      exact List.mem_append_right _ (List.mem_of_head? h)
    exact (isComponent_of_mem hwork hmem).2.2.2 rfl
  rw [relative?, if_neg hne, if_neg (by simp [hwork, hp]), if_neg hhere]
  dsimp only
  rw [if_neg hup]

/-- Going down from the working directory leads to the path below. -/
theorem resolve_below (hwork : isAbsolute work = true) (hp : isAbsolute p = true)
    (hdowns : downs ≠ []) (hcomp : components work ++ downs = components p) :
    isAbsolute (Text.joinWith [Text.slash] downs) = false ∧
      resolve work (Text.joinWith [Text.slash] downs) = clean p := by
  have hnames : ∀ n ∈ downs, IsComponent n := fun n hn =>
    isComponent_of_mem hp (hcomp ▸ List.mem_append_right _ hn)
  have hrelative : isAbsolute (Text.joinWith [Text.slash] downs) = false :=
    isAbsolute_joinWith hdowns fun n hn => ⟨(hnames n hn).1, (hnames n hn).2.1⟩
  refine ⟨hrelative, ?_⟩
  rw [resolve, hrelative, if_neg Bool.false_ne_true, join_joinWith hdowns hnames, hcomp, clean,
    hwork, hp]

theorem resolve_here (hwork : isAbsolute work = true) : resolve work here = clean work := by
  have hrelative : isAbsolute here = false := by decide
  refine eq_of_components (clean_resolve hwork here) (clean_clean work) ?_ ?_
  · rw [isAbsolute_resolve hwork, isAbsolute_clean, hwork]
  · rw [resolve, hrelative, if_neg Bool.false_ne_true,
      components_join_relative (ne_nil_of_isAbsolute hwork) hrelative, components_clean]
    exact List.reverse_reverse _

/-! ### What is shown -/

/-- The name by which a path goes on below the working directory starts with two
    dots. -/
def DotsBelow (work p : Text) : Prop := ∃ n, components work ++ [n] <+: components p ∧ up <+: n

/-- A text of names starts with two dots if its first name does. -/
theorem up_prefix_joinWith_iff {n : Text} {more : List Text} :
    up <+: Text.joinWith [Text.slash] (n :: more) ↔ up <+: n := by
  cases more with
  | nil => simp [Text.joinWith]
  | cons m more =>
    rw [Text.joinWith_cons (List.cons_ne_nil m more), List.singleton_append]
    exact Text.prefix_append_iff (by decide)

/-- What is shown of a path that has to be left by going up, or that goes on by a name
    that starts with two dots, is the path. -/
theorem display_of_up {first : Text} {more : List Text} (hup : up <+: first)
    (h : relative? work p = some (Text.joinWith [Text.slash] (first :: more))) :
    display work p = p := by
  rw [display, h]
  exact if_pos (List.isPrefixOf_iff_prefix.2 (up_prefix_joinWith_iff.2 hup))

theorem display_of_not_up {first : Text} {more : List Text} (hup : ¬ up <+: first)
    (h : relative? work p = some (Text.joinWith [Text.slash] (first :: more))) :
    display work p = Text.joinWith [Text.slash] (first :: more) := by
  rw [display, h]
  refine if_neg fun hprefix => hup ?_
  exact up_prefix_joinWith_iff.1 (List.isPrefixOf_iff_prefix.1 hprefix)

theorem display_of_clean_eq (h : clean p = clean work) : display work p = here := by
  rw [display, relative?, if_pos h]
  exact if_neg (by decide)

theorem clean_ne_of_below (h : Below p work) : clean p ≠ clean work := fun heq =>
  h.2 (by rw [← components_clean work, ← heq, components_clean])

theorem not_dotsBelow_of_clean_eq (h : clean p = clean work) : ¬ DotsBelow work p := by
  rintro ⟨n, hn, _⟩
  have hcomp : components p = components work := by
    rw [← components_clean p, h, components_clean]
  have hle := hn.length_le
  rw [hcomp, List.length_append, List.length_singleton] at hle
  omega

/-- A path that lies below the working directory is shown as it goes on from there,
    unless that starts with two dots. -/
theorem display_of_below (hwork : isAbsolute work = true) (hp : isAbsolute p = true)
    (hbelow : Below p work) :
    (DotsBelow work p → display work p = p) ∧
    (¬ DotsBelow work p →
      isAbsolute (display work p) = false ∧ resolve work (display work p) = clean p) := by
  obtain ⟨ups, downs, hparted, hshown⟩ := relative?_eq_some hwork hp (clean_ne_of_below hbelow)
  obtain rfl := hparted.eq_nil_iff.2 hbelow.1
  have hcomp := hparted.append_eq
  cases downs with
  | nil => exact absurd (by simpa using hcomp) hbelow.2
  | cons n rest =>
    have hname {m : Text} (hm : components work ++ [m] <+: components p) : m = n :=
      name_eq_below hm ⟨rest, by rw [← hcomp]; simp⟩
    constructor
    · rintro ⟨m, hm, hdots⟩
      exact display_of_up (hname hm ▸ hdots) hshown
    · intro hdots
      have hnot : ¬ up <+: n := fun h => hdots ⟨n, ⟨rest, by rw [← hcomp]; simp⟩, h⟩
      rw [display_of_not_up hnot hshown]
      exact resolve_below hwork hp (List.cons_ne_nil n rest) hcomp

/-- A path outside of the working directory is shown as it is. -/
theorem display_of_outside (hwork : isAbsolute work = true) (hp : isAbsolute p = true)
    (hne : clean p ≠ clean work) (hbelow : ¬ Below p work) : display work p = p := by
  obtain ⟨ups, downs, hparted, hshown⟩ := relative?_eq_some hwork hp hne
  cases ups with
  | nil =>
    refine absurd ⟨hparted.eq_nil_iff.1 rfl, fun hcomp => hne ?_⟩ hbelow
    rw [clean, clean, hp, hwork, hcomp]
  | cons u ups => exact display_of_up List.prefix_rfl hshown

/-- A path that is the working directory or lies below it is shown as a relative path
    that leads back to it, unless it goes on below by a name that starts with two dots.
    Any other path is shown as it is. -/
theorem display_inside_unless_dots (hwork : isAbsolute work = true) (hp : isAbsolute p = true) :
    (clean p = clean work ∨ Below p work → ¬ DotsBelow work p →
      isAbsolute (display work p) = false ∧ resolve work (display work p) = clean p) ∧
    (¬ (clean p = clean work ∨ Below p work) ∨ DotsBelow work p → display work p = p) := by
  by_cases heq : clean p = clean work
  · have hdots := not_dotsBelow_of_clean_eq heq
    refine ⟨fun _ _ => ?_, fun h => absurd (.inl heq) (h.resolve_right hdots)⟩
    rw [display_of_clean_eq heq, resolve_here hwork, heq]
    exact ⟨by decide, rfl⟩
  · by_cases hbelow : Below p work
    · obtain ⟨hhidden, hshown⟩ := display_of_below hwork hp hbelow
      exact ⟨fun _ => hshown, fun h => hhidden (h.resolve_left fun h => h (.inr hbelow))⟩
    · have houtside : ¬ (clean p = clean work ∨ Below p work) := not_or.2 ⟨heq, hbelow⟩
      exact ⟨fun h => absurd h houtside, fun _ => display_of_outside hwork hp heq hbelow⟩

theorem display_inside_unless_dots_sample :
    isAbsolute (display (text "/w") (text "/w/src/./a..b")) = false ∧
      resolve (text "/w") (display (text "/w") (text "/w/src/./a..b")) =
        clean (text "/w/src/./a..b") := by
  have hwork : isAbsolute (text "/w") = true := by decide
  have hp : isAbsolute (text "/w/src/./a..b") = true := by decide
  have hbelow : Below (text "/w/src/./a..b") (text "/w") := by decide +kernel
  have hdots : ¬ DotsBelow (text "/w") (text "/w/src/./a..b") := by
    rintro ⟨n, hn, hdots⟩
    obtain rfl : n = text "src" := name_eq_below hn (by decide +kernel)
    exact absurd hdots (by decide)
  exact (display_inside_unless_dots hwork hp).1 (.inr hbelow) hdots

/-- A file whose name starts with two dots is not shortened, although it lies in the
    working directory. -/
theorem display_dots : Below (text "/w/..a") (text "/w") ∧
    display (text "/w") (text "/w/..a") = text "/w/..a" ∧
      isAbsolute (display (text "/w") (text "/w/..a")) = true := by
  decide +kernel

end ImportFinder.Path
