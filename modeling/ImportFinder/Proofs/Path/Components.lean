import ImportFinder.Path
import ImportFinder.Proofs.Text.Split

/-!
# Paths and their components

A cleaned path is determined by its components and by whether it is absolute,
and going down by a name adds that name at the end:

* `components_render`: a path is read back from the components it was made of,
  if they are as cleaning leaves them (`Settled`);
* `components_join`: going down by a single component (`IsComponent`) adds it
  to the components of the path;
* `foldl_join`: going down name by name leads to the same place as going down
  by all names at once;
* `base_join`: the last component is the name by which one went down.
-/

namespace ImportFinder.Path

/-- A name that is one component of a path and stands for no other place. -/
def IsComponent (name : Text) : Prop :=
  name ≠ [] ∧ Text.slash ∉ name ∧ name ≠ here ∧ name ≠ up

instance : DecidablePred IsComponent := fun name =>
  inferInstanceAs (Decidable (name ≠ [] ∧ Text.slash ∉ name ∧ name ≠ here ∧ name ≠ up))

/-- A stack of components as cleaning leaves it: none of them is empty or names
    the directory itself, and the parent directory is named at the bottom of
    relative paths only. -/
def Settled (absolute : Bool) : List Text → Prop
  | [] => True
  | c :: below => (c ≠ [] ∧ c ≠ here ∧ Text.slash ∉ c) ∧
      (c = up → absolute = false ∧ ∀ d ∈ below, d = up) ∧ Settled absolute below

variable {absolute : Bool} {stack : List Text}

theorem push_name {c : Text} (hne : c ≠ []) (hhere : c ≠ here) (hup : c ≠ up) :
    push absolute stack c = c :: stack := by
  unfold push
  rw [if_neg (not_or.2 ⟨hne, hhere⟩), if_neg hup]

theorem push_up_nil : push absolute [] up = if absolute then [] else [up] := rfl

theorem push_up_cons {top : Text} :
    push absolute (top :: stack) up = if top = up then up :: top :: stack else stack := rfl

theorem Settled.push (hs : Settled absolute stack) {c : Text} (hc : Text.slash ∉ c) :
    Settled absolute (push absolute stack c) := by
  by_cases hdrop : c = [] ∨ c = here
  · unfold Path.push
    rwa [if_pos hdrop]
  rw [not_or] at hdrop
  by_cases hup : c = up
  · subst hup
    cases stack with
    | nil =>
      rw [push_up_nil]
      split_ifs with habs
      · exact trivial
      · exact ⟨⟨hdrop.1, hdrop.2, hc⟩, fun _ => ⟨Bool.eq_false_iff.2 habs, by simp⟩, trivial⟩
    | cons top below =>
      rw [push_up_cons]
      split_ifs with htop
      · -- The parent directory of a parent directory: all of the stack is such.
        refine ⟨⟨hdrop.1, hdrop.2, hc⟩, fun _ => ⟨(hs.2.1 htop).1, fun d hd => ?_⟩, hs⟩
        rcases List.mem_cons.1 hd with rfl | hd
        · exact htop
        · exact (hs.2.1 htop).2 d hd
      · exact hs.2.2
  · rw [push_name hdrop.1 hdrop.2 hup]
    exact ⟨⟨hdrop.1, hdrop.2, hc⟩, fun h => absurd h hup, hs⟩

theorem Settled.foldl_push {pieces : List Text} (hp : ∀ c ∈ pieces, Text.slash ∉ c)
    (hs : Settled absolute stack) : Settled absolute (pieces.foldl (Path.push absolute) stack) := by
  induction pieces generalizing stack with
  | nil => exact hs
  | cons c pieces ih =>
    exact ih (fun d hd => hp d (List.mem_cons_of_mem _ hd)) (hs.push (hp c List.mem_cons_self))

/-- The components of any path are settled. -/
theorem settled_components (p : Text) : Settled (isAbsolute p) (components p).reverse := by
  rw [components, List.reverse_reverse]
  exact Settled.foldl_push (fun c hc => Text.not_mem_of_mem_split hc) trivial

/-- What is settled stays as it is when it is pushed once more. -/
theorem Settled.push_eq {c : Text} (hs : Settled absolute (c :: stack)) :
    Path.push absolute stack c = c :: stack := by
  obtain ⟨⟨hne, hhere, _⟩, hup, _⟩ := hs
  by_cases hc : c = up
  · obtain ⟨rfl, hall⟩ := hup hc
    subst hc
    cases stack with
    | nil => rfl
    | cons top below => rw [push_up_cons, if_pos (hall top List.mem_cons_self)]
  · exact push_name hne hhere hc

theorem Settled.foldl_push_reverse (hs : Settled absolute stack) :
    stack.reverse.foldl (Path.push absolute) [] = stack := by
  induction stack with
  | nil => rfl
  | cons c below ih =>
    rw [List.reverse_cons, List.foldl_append, ih hs.2.2]
    exact hs.push_eq

theorem Settled.mem (hs : Settled absolute stack) : ∀ c ∈ stack, c ≠ [] ∧ Text.slash ∉ c := by
  induction stack with
  | nil => exact fun c hc => absurd hc List.not_mem_nil
  | cons c below ih =>
    intro d hd
    rcases List.mem_cons.1 hd with rfl | hd
    · exact ⟨hs.1.1, hs.1.2.2⟩
    · exact ih hs.2.2 d hd

/-! ### Reading a path back -/

variable {cs : List Text}

theorem foldl_push_split_joinWith (hs : Settled absolute cs.reverse) :
    (Text.split Text.slash (Text.joinWith [Text.slash] cs)).foldl (push absolute) [] =
      cs.reverse := by
  by_cases hcs : cs = []
  · subst hcs
    rfl
  · rw [Text.split_joinWith hcs fun c hc => (hs.mem c (List.mem_reverse.2 hc)).2]
    simpa using hs.foldl_push_reverse

theorem isAbsolute_joinWith (hcs : cs ≠ []) (h : ∀ c ∈ cs, c ≠ [] ∧ Text.slash ∉ c) :
    isAbsolute (Text.joinWith [Text.slash] cs) = false := by
  obtain ⟨first, more, rfl⟩ := List.exists_cons_of_ne_nil hcs
  obtain ⟨hne, hslash⟩ := h first List.mem_cons_self
  obtain ⟨b, rest, rfl⟩ := List.exists_cons_of_ne_nil hne
  have hb : b ≠ Text.slash := fun h => hslash (h ▸ List.mem_cons_self)
  simpa [isAbsolute, Text.joinWith] using hb

/-- The path made of settled components is absolute as it was asked to be. -/
theorem isAbsolute_render (hs : Settled absolute cs.reverse) :
    isAbsolute (render absolute cs) = absolute := by
  cases absolute with
  | true => rfl
  | false =>
    by_cases hcs : cs = []
    · subst hcs
      decide
    · rw [render, if_neg Bool.false_ne_true, if_neg (by simpa using hcs)]
      exact isAbsolute_joinWith hcs fun c hc => hs.mem c (List.mem_reverse.2 hc)

/-- Settled components are read back from the path made of them. -/
theorem components_render (hs : Settled absolute cs.reverse) :
    components (render absolute cs) = cs := by
  rw [components, isAbsolute_render hs, List.reverse_eq_iff]
  cases absolute with
  | true =>
    -- The slash at the front makes an empty piece, which is dropped.
    rw [render, if_pos rfl, Text.split_cons_self, List.foldl_cons]
    exact foldl_push_split_joinWith hs
  | false =>
    by_cases hcs : cs = []
    · subst hcs
      decide
    · rw [render, if_neg Bool.false_ne_true, if_neg (by simpa using hcs)]
      exact foldl_push_split_joinWith hs

/-! ### Going down -/

variable {p : Text} {names : List Text}

theorem foldl_push_names (hn : ∀ n ∈ names, IsComponent n) :
    names.foldl (push absolute) stack = names.reverse ++ stack := by
  induction names generalizing stack with
  | nil => rfl
  | cons n names ih =>
    obtain ⟨hne, _, hhere, hup⟩ := hn n List.mem_cons_self
    rw [List.foldl_cons, push_name hne hhere hup, ih fun m hm => hn m (List.mem_cons_of_mem _ hm)]
    simp

/-- Names added to the components of a path leave them settled. -/
theorem settled_components_append (hn : ∀ n ∈ names, IsComponent n) (p : Text) :
    Settled (isAbsolute p) (components p ++ names).reverse := by
  rw [List.reverse_append, ← foldl_push_names hn]
  exact (settled_components p).foldl_push fun n hm => (hn n hm).2.1

theorem join_nil {q : Text} (hq : q ≠ []) : join [] q = clean q := by
  simp [join, hq]

theorem join_of_ne_nil (hp : p ≠ []) (q : Text) : join p q = clean (p ++ Text.slash :: q) := by
  simp [join, hp]

/-- The place to which one comes from a path by going down by names. -/
theorem join_joinWith (hne : names ≠ []) (hn : ∀ n ∈ names, IsComponent n) (p : Text) :
    join p (Text.joinWith [Text.slash] names) =
      render (isAbsolute p) (components p ++ names) := by
  have hmem : ∀ n ∈ names, n ≠ [] ∧ Text.slash ∉ n := fun n h => ⟨(hn n h).1, (hn n h).2.1⟩
  have hsplit := Text.split_joinWith hne fun n h => (hmem n h).2
  cases p with
  | nil =>
    -- There is nothing to go down from: the names are cleaned by themselves.
    have habs := isAbsolute_joinWith hne hmem
    have hcomp : components (Text.joinWith [Text.slash] names) = names := by
      rw [components, hsplit, foldl_push_names hn]
      simp
    have hjoin : Text.joinWith [Text.slash] names ≠ [] := fun h => by
      rw [h] at hsplit
      exact (hmem [] (hsplit ▸ List.mem_singleton_self [])).1 rfl
    rw [join_nil hjoin, clean, habs, hcomp]
    rfl
  | cons b p =>
    -- The slash between the path and the names divides their pieces.
    have habs : isAbsolute (b :: p ++ Text.slash :: Text.joinWith [Text.slash] names) =
      isAbsolute (b :: p) := rfl
    rw [join_of_ne_nil (List.cons_ne_nil b p), clean, habs, components, components, habs,
      Text.split_append, hsplit, List.foldl_append, foldl_push_names hn]
    simp

theorem join_eq_render {n : Text} (hn : IsComponent n) (p : Text) :
    join p n = render (isAbsolute p) (components p ++ [n]) := by
  simpa [Text.joinWith] using
    join_joinWith (List.cons_ne_nil n []) (fun m hm => List.mem_singleton.1 hm ▸ hn) p

/-- Going down by a name adds it to the components of a path. -/
theorem components_join {n : Text} (hn : IsComponent n) (p : Text) :
    components (join p n) = components p ++ [n] := by
  rw [join_eq_render hn]
  exact components_render (settled_components_append (fun m hm => List.mem_singleton.1 hm ▸ hn) p)

theorem isAbsolute_join {n : Text} (hn : IsComponent n) (p : Text) :
    isAbsolute (join p n) = isAbsolute p := by
  rw [join_eq_render hn]
  exact isAbsolute_render (settled_components_append (fun m hm => List.mem_singleton.1 hm ▸ hn) p)

/-- Going down by names adds them to the components of a path. -/
theorem components_foldl_join (hn : ∀ n ∈ names, IsComponent n) (p : Text) :
    components (names.foldl join p) = components p ++ names := by
  induction names generalizing p with
  | nil => simp
  | cons n more ih =>
    rw [List.foldl_cons, ih fun m hm => hn m (List.mem_cons_of_mem _ hm),
      components_join (hn n List.mem_cons_self), List.append_assoc, List.singleton_append]

/-- Going down name by name leads to the same place as going down by all names
    at once. -/
theorem foldl_join (hne : names ≠ []) (hn : ∀ n ∈ names, IsComponent n) (p : Text) :
    names.foldl join p = join p (Text.joinWith [Text.slash] names) := by
  induction names generalizing p with
  | nil => exact absurd rfl hne
  | cons n more ih =>
    have hmore : ∀ m ∈ more, IsComponent m := fun m hm => hn m (List.mem_cons_of_mem _ hm)
    by_cases hmore' : more = []
    · subst hmore'
      simp [Text.joinWith]
    · -- Both ways lead to the path that is made of the same components.
      have hn' := hn n List.mem_cons_self
      rw [List.foldl_cons, ih hmore' hmore, join_joinWith hmore' hmore, join_joinWith hne hn,
        components_join hn', isAbsolute_join hn', List.append_assoc, List.singleton_append]

/-- Below a directory there is one way to go on to each path. -/
theorem name_eq_below {cs ds : List Text} {m n : Text} (hm : cs ++ [m] <+: ds)
    (hn : cs ++ [n] <+: ds) : m = n := by
  have hle := List.prefix_of_prefix_length_le hm hn (by simp)
  exact List.singleton_inj.1 (List.append_cancel_left (hle.eq_of_length (by simp)))

/-! ### The last component -/

/-- A path that ends with a name ends there as its base. -/
theorem base_append {n : Text} (hne : n ≠ []) (hslash : Text.slash ∉ n) {front : Text}
    (hfront : front = [] ∨ front.getLast? = some Text.slash) : base (front ++ n) = n := by
  -- A name has no slash, so there is none at the end to be dropped.
  have hdrop : dropSlashes (front ++ n) = front ++ n := by
    obtain ⟨before, last, rfl⟩ := List.eq_nil_or_concat n |>.resolve_left hne
    have hlast : last ≠ Text.slash := fun h => hslash (by simp [h])
    simp [dropSlashes, hlast]
  have hnil : (front ++ n).isEmpty = false := by simp [hne]
  rw [base, hnil, if_neg Bool.false_ne_true]
  dsimp only
  rw [hdrop, hnil, if_neg Bool.false_ne_true]
  rcases hfront with rfl | hfront
  · rw [List.nil_append, Text.splitLast_of_not_mem hslash]
  · obtain ⟨before, rfl⟩ := List.getLast?_eq_some_iff.1 hfront
    rw [List.append_assoc, List.singleton_append, Text.splitLast_append hslash]

/-- The base of a path is a single component, unless nothing is left of the path
    without the slashes at its end. -/
theorem base_eq_slash_or (p : Text) :
    base p = [Text.slash] ∨ base p ≠ [] ∧ Text.slash ∉ base p := by
  rw [base]
  split_ifs with hp
  · exact .inr (by decide)
  dsimp only
  split_ifs with hq
  · exact .inl rfl
  right
  have hne : dropSlashes p ≠ [] := by simpa using hq
  split
  next before last hsplit =>
    obtain ⟨hdivided, hlast⟩ := Text.splitLast_eq_some_iff.1 hsplit
    refine ⟨?_, hlast⟩
    rintro rfl
    -- The path without the slashes at its end would end with a slash.
    have hreverse : p.reverse.dropWhile (· == Text.slash) = Text.slash :: before.reverse := by
      rw [dropSlashes, List.reverse_eq_iff] at hdivided
      simpa using hdivided
    have hnot := List.head?_dropWhile_not (· == Text.slash) p.reverse
    simp [hreverse] at hnot
  next hsplit => exact ⟨hne, Text.splitLast_eq_none_iff.1 hsplit⟩

theorem render_concat (absolute : Bool) (cs : List Text) (n : Text) :
    ∃ front, render absolute (cs ++ [n]) = front ++ n ∧
      (front = [] ∨ front.getLast? = some Text.slash) := by
  have hjoin : ∃ front, Text.joinWith [Text.slash] (cs ++ [n]) = front ++ n ∧
      (front = [] ∨ front.getLast? = some Text.slash) := by
    by_cases hcs : cs = []
    · exact ⟨[], by simp [hcs, Text.joinWith], .inl rfl⟩
    · exact ⟨Text.joinWith [Text.slash] cs ++ [Text.slash], by simp [Text.joinWith_concat hcs],
        .inr (by simp)⟩
  obtain ⟨front, hfront, hend⟩ := hjoin
  cases absolute with
  | true =>
    refine ⟨Text.slash :: front, by simp [render, hfront], .inr ?_⟩
    rcases hend with rfl | hend
    · rfl
    · simp [List.getLast?_cons, hend]
  | false => exact ⟨front, by simp [render, hfront], hend⟩

/-- The last component is the name by which one went down. -/
theorem base_join {n : Text} (hn : IsComponent n) (p : Text) : base (join p n) = n := by
  obtain ⟨front, hfront, hend⟩ := render_concat (isAbsolute p) (components p) n
  rw [join_eq_render hn, hfront, base_append hn.1 hn.2.1 hend]

end ImportFinder.Path
