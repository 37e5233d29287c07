import ImportFinder.Environment
import Mathlib.Data.List.Basic
import Mathlib.Tactic.SplitIfs

/-!
# What variables add to the environment

Of some variables only those are set that are not set yet, and only those that can be
(`get?_setDefaults`). So a variable that is set keeps its value, be it the empty one,
and whatever else is said of it is lost. As every name is defined once, no definition
hides another one.
-/

namespace ImportFinder

namespace Environment

variable {e : Environment} {name other value : Text}

theorem get?_setDefault : (e.setDefault name value).get? other = (e.get? other).or
    (if other = name ∧ isSettable name value = true then some value else none) := by
  rw [setDefault]
  split_ifs with hkept hadded hadded
  · -- The variable stays as it is, although its value could be set.
    obtain ⟨rfl, hsettable⟩ := hadded
    have hset : (e.get? other).isSome = true := by simpa [hsettable] using hkept
    rw [Option.or_of_isSome hset]
  · rw [Option.or_none]
  · obtain ⟨rfl, -⟩ := hadded
    rw [get?, List.lookup_append, List.lookup_cons_self, get?]
  · have hfree : e.get? name = none ∧ isSettable name value = true := by simpa using hkept
    have hne : other ≠ name := fun h => hadded ⟨h, hfree.2⟩
    rw [get?, List.lookup_append, List.lookup_cons, beq_eq_false_iff_ne.2 hne, get?]
    rfl

/-- A variable that is set keeps its value. Another one gets the one that is defined,
    if that can be set. -/
theorem get?_setDefaults (e : Environment) (vars : Variables) (name : Text) :
    (e.setDefaults vars).get? name =
      (e.get? name).or ((List.lookup name vars.entries).filter (isSettable name)) := by
  obtain ⟨all, h⟩ := vars
  induction all generalizing e with
  | nil => simp [setDefaults]
  | cons v all ih =>
    obtain ⟨other, value⟩ := v
    have hnodup := h
    rw [List.map_cons, List.nodup_cons] at hnodup
    have hstep : e.setDefaults ⟨(other, value) :: all, h⟩ =
        (e.setDefault other value).setDefaults ⟨all, hnodup.2⟩ := rfl
    rw [hstep, ih _ hnodup.2, get?_setDefault, Option.or_assoc]
    congr 1
    by_cases hname : name = other
    · subst hname
      have hnone : List.lookup name all = none :=
        List.lookup_eq_none_iff.2 fun v hv => bne_iff_ne.2 fun heq =>
          hnodup.1 (List.mem_map.2 ⟨v, hv, heq.symm⟩)
      rw [hnone, List.lookup_cons_self]
      simp [Option.filter]
    · rw [List.lookup_cons, beq_eq_false_iff_ne.2 hname]
      simp [hname]

end Environment

end ImportFinder
