import ImportFinder.Proofs.Path.Absolute
import Mathlib.Data.List.Induction

/-!
# Places that paths mention

A path mentions itself and every place above it. When several paths are given one
after the other, the places are mentioned in some order, and at each of them the
names by which the paths go on (`branches`) come in the order in which they are
first mentioned (`pairwise_branches`).

Read depth first, this is an order of paths: at the place where two paths part,
that one comes first whose branch was mentioned first (`Precedes`).

Places are given by their components.
-/

namespace ImportFinder.Path

variable {paths : List (List Text)} {path cs ds : List Text} {n : Text}

/-! ### Below a place -/

/-- `q` lies below `p`, and is not the same place. -/
def Below (q p : Text) : Prop := components p <+: components q ∧ components p ≠ components q

instance (q p : Text) : Decidable (Below q p) :=
  inferInstanceAs (Decidable (components p <+: components q ∧ components p ≠ components q))

theorem below_iff {p q : Text} :
    Below q p ↔ ∃ n, components p ++ [n] <+: components q := by
  constructor
  · rintro ⟨⟨rest, hrest⟩, hne⟩
    cases rest with
    | nil => exact absurd (by simpa using hrest) hne
    | cons n rest => exact ⟨n, rest, by rw [← hrest]; simp⟩
  · rintro ⟨n, hn⟩
    refine ⟨(List.prefix_append _ [n]).trans hn, fun h => ?_⟩
    have hle := hn.length_le
    rw [← h, List.length_append, List.length_singleton] at hle
    omega

/-- What is below a place is the place itself or below one that it leads to by a
    name. -/
theorem prefix_iff_eq_or :
    cs <+: ds ↔ cs = ds ∨ ∃ n, cs ++ [n] <+: ds := by
  constructor
  · rintro ⟨rest, rfl⟩
    cases rest with
    | nil => exact .inl (by simp)
    | cons n rest => exact .inr ⟨n, rest, by simp⟩
  · rintro (rfl | ⟨n, hn⟩)
    · exact List.prefix_rfl
    · exact (List.prefix_append _ [n]).trans hn

/-- A cleaned absolute path that is a place or lies below it. -/
structure Within (root p : Text) : Prop where
  clean : clean p = p
  absolute : isAbsolute p = true
  under : components root <+: components p

variable {root p q : Text}

theorem Within.eq (hp : Within root p) (hq : Within root q) (h : components p = components q) :
    p = q :=
  eq_of_components hp.clean hq.clean (hp.absolute.trans hq.absolute.symm) h

theorem Within.join (hp : Within root p) (hn : IsComponent n) : Within root (join p n) where
  clean := clean_join hn p
  absolute := (isAbsolute_join hn p).trans hp.absolute
  under := by
    rw [components_join hn]
    exact hp.under.trans (List.prefix_append _ _)

theorem Within.isComponent (hp : Within root p) (hn : components q ++ [n] <+: components p) :
    IsComponent n :=
  isComponent_of_mem hp.absolute (hn.subset (by simp))

/-- Below a place, a path has a parent. -/
theorem Within.parent_ne (hroot : Within root root) (hp : Within root p) (hne : p ≠ root) :
    parent p ≠ p := by
  intro hparent
  have hnil := components_eq_nil hp.clean hparent
  have hunder := hp.under
  rw [hnil, List.prefix_nil] at hunder
  exact hne (hp.eq hroot (hnil.trans hunder.symm))

theorem Within.components_eq (hroot : Within root root) (hp : Within root p) (hne : p ≠ root) :
    components p = components (parent p) ++ [base p] :=
  components_eq_concat hp.clean hp.absolute (hroot.parent_ne hp hne)

theorem Within.parent (hroot : Within root root) (hp : Within root p) (hne : p ≠ root) :
    Within root (parent p) where
  clean := clean_parent p
  absolute := (isAbsolute_parent hp.clean).trans hp.absolute
  under := by
    have hcomp := hroot.components_eq hp hne
    have hunder := hp.under
    rw [hcomp, List.prefix_concat_iff, ← hcomp] at hunder
    exact hunder.resolve_left fun h => hne (hp.eq hroot h.symm)

/-! ### Branches -/

/-- The name by which a path goes on below a place. -/
def next? (cs path : List Text) : Option Text := if cs <+: path then path[cs.length]? else none

theorem next?_eq_some_iff : next? cs path = some n ↔ cs ++ [n] <+: path := by
  unfold next?
  split_ifs with hcs
  · obtain ⟨rest, rfl⟩ := hcs
    rw [List.getElem?_append_right (Nat.le_refl _), Nat.sub_self, List.prefix_append_right_inj]
    cases rest with
    | nil => simp
    | cons k rest => simp [eq_comm]
  · simp only [false_iff]
    exact fun hn => hcs ((List.prefix_append _ [n]).trans hn)

/-- One name more at the end of a path matters at the place before it only. -/
theorem next?_concat_of_ne (h : cs ≠ ds) : next? cs (ds ++ [n]) = next? cs ds := by
  refine Option.ext fun k => ?_
  rw [next?_eq_some_iff, next?_eq_some_iff, List.prefix_concat_iff]
  exact or_iff_right fun heq => h (List.append_inj' heq rfl).1

/-- The names by which paths go on below a place, in the order in which they are
    first mentioned. -/
def branches (paths : List (List Text)) (cs : List Text) : List Text :=
  (paths.filterMap (next? cs)).eraseDups

theorem mem_branches_iff : n ∈ branches paths cs ↔ ∃ path ∈ paths, cs ++ [n] <+: path := by
  simp [branches, List.mem_eraseDups, next?_eq_some_iff]

theorem branches_eq_nil (h : ∀ path ∈ paths, ¬ cs <+: path) : branches paths cs = [] := by
  refine List.eq_nil_iff_forall_not_mem.2 fun n hn => ?_
  obtain ⟨path, hpath, hunder⟩ := mem_branches_iff.1 hn
  exact h path hpath ((List.prefix_append _ [n]).trans hunder)

theorem branches_concat_of_none (h : next? cs path = none) :
    branches (paths ++ [path]) cs = branches paths cs := by
  simp [branches, h]

theorem branches_concat_of_some (h : next? cs path = some n) :
    branches (paths ++ [path]) cs =
      branches paths cs ++ ([n].removeAll (paths.filterMap (next? cs))).eraseDups := by
  simp [branches, h, List.eraseDups_append]

/-- One more path adds no name that is mentioned already. -/
theorem branches_concat_of_mem (hnext : next? cs path = some n) (hn : n ∈ branches paths cs) :
    branches (paths ++ [path]) cs = branches paths cs := by
  have hold : [n].removeAll (paths.filterMap (next? cs)) = [] := by
    simpa [List.removeAll] using List.mem_eraseDups.1 hn
  rw [branches_concat_of_some hnext, hold, List.eraseDups_nil, List.append_nil]

/-- One more path adds a new name behind the others. -/
theorem branches_concat_of_not_mem (hnext : next? cs path = some n)
    (hn : n ∉ branches paths cs) :
    branches (paths ++ [path]) cs = branches paths cs ++ [n] := by
  have hnew : [n].removeAll (paths.filterMap (next? cs)) = [n] := by
    simpa [List.removeAll] using mt List.mem_eraseDups.2 hn
  rw [branches_concat_of_some hnext, hnew]
  rfl

/-! ### The order of mention -/

/-- The number of the first path that mentions a place. -/
def mention (paths : List (List Text)) (cs : List Text) : Nat :=
  paths.findIdx fun path => cs.isPrefixOf path

theorem mention_lt_length_iff :
    mention paths cs < paths.length ↔ ∃ path ∈ paths, cs <+: path := by
  simp [mention, List.findIdx_lt_length]

/-- A place that is mentioned already is first mentioned where it was. -/
theorem mention_concat_of_lt (h : mention paths cs < paths.length) (path : List Text) :
    mention (paths ++ [path]) cs = mention paths cs := by
  unfold mention at h ⊢
  rw [List.findIdx_append, if_pos h]

theorem mention_concat_of_not_lt (h : ¬ mention paths cs < paths.length) (path : List Text) :
    paths.length ≤ mention (paths ++ [path]) cs := by
  unfold mention at h ⊢
  rw [List.findIdx_append, if_neg h]
  omega

/-- The branches of a place come in the order in which they are mentioned. -/
theorem pairwise_branches (paths : List (List Text)) (cs : List Text) :
    (branches paths cs).Pairwise fun a b =>
      mention paths (cs ++ [a]) < mention paths (cs ++ [b]) := by
  induction paths using List.reverseRecOn with
  | nil => exact List.Pairwise.nil
  | append_singleton paths path ih =>
    have hlt : ∀ n ∈ branches paths cs, mention paths (cs ++ [n]) < paths.length := fun n hn =>
      mention_lt_length_iff.2 (mem_branches_iff.1 hn)
    -- What was mentioned stays where it is.
    have hold : (branches paths cs).Pairwise fun a b =>
        mention (paths ++ [path]) (cs ++ [a]) < mention (paths ++ [path]) (cs ++ [b]) := by
      refine ih.imp_of_mem fun {a b} ha hb hab => ?_
      rwa [mention_concat_of_lt (hlt a ha), mention_concat_of_lt (hlt b hb)]
    cases hnext : next? cs path with
    | none => rwa [branches_concat_of_none hnext]
    | some n =>
      by_cases hn : n ∈ branches paths cs
      · rwa [branches_concat_of_mem hnext hn]
      · -- The new name comes last, and is mentioned last.
        rw [branches_concat_of_not_mem hnext hn, List.pairwise_append]
        refine ⟨hold, List.pairwise_singleton _ _, fun a ha b hb => ?_⟩
        obtain rfl := List.mem_singleton.1 hb
        rw [mention_concat_of_lt (hlt a ha)]
        have hnew : ¬ mention paths (cs ++ [b]) < paths.length := fun h =>
          hn (mem_branches_iff.2 (mention_lt_length_iff.1 h))
        exact Nat.lt_of_lt_of_le (hlt a ha) (mention_concat_of_not_lt hnew path)

/-- Depth first, `p` comes before `q`: where they part, the branch of `p` was
    mentioned first. -/
def Precedes (paths : List Text) (p q : Text) : Prop :=
  ∃ cs a b, cs ++ [a] <+: components p ∧ cs ++ [b] <+: components q ∧
    mention (paths.map components) (cs ++ [a]) < mention (paths.map components) (cs ++ [b])

end ImportFinder.Path
