import ImportFinder.Text.Basic

/-!
# Environment variables

The environment of the program: texts under names, each name once. A variable
that is not set reads as the empty text.

Variables that are defined elsewhere can be added to it, as long as they are not set
already.
-/

namespace ImportFinder

/-- Variables with their values, each name once. -/
structure Variables where
  entries : List (Text × Text)
  nodup : (entries.map Prod.fst).Nodup
  deriving DecidableEq

/-- No variables. -/
def Variables.empty : Variables := ⟨[], List.nodup_nil⟩

/-- The variables with one put under a name. -/
def Variables.put (vars : Variables) (name value : Text) : Variables where
  entries := vars.entries.filter (·.1 ≠ name) ++ [(name, value)]
  nodup := by
    rw [List.map_append, List.map_singleton, List.nodup_append]
    refine ⟨vars.nodup.sublist (List.filter_sublist.map _), List.pairwise_singleton _ _, ?_⟩
    intro other hother last hlast
    rw [List.mem_singleton] at hlast
    obtain ⟨v, hv, rfl⟩ := List.mem_map.1 hother
    exact fun heq => of_decide_eq_true (List.mem_filter.1 hv).2 (heq.trans hlast)

/-- The variables with their values. -/
structure Environment where
  entries : List (Text × Text) := []
  deriving DecidableEq, Repr

namespace Environment

/-- The value of a variable, if it is set. -/
def get? (e : Environment) (name : Text) : Option Text := List.lookup name e.entries

/-- The value of a variable, empty if it is not set. -/
def get (e : Environment) (name : Text) : Text := (e.get? name).getD []

/-- Whether a variable can have a name and a value: the name is not empty and
    holds no equals sign, and neither holds a zero byte. -/
def isSettable (name value : Text) : Bool :=
  !name.isEmpty && !name.contains 0x3D && !name.contains 0 && !value.contains 0

/-- Sets a variable, unless it is set already or cannot be. -/
def setDefault (e : Environment) (name value : Text) : Environment :=
  if (e.get? name).isSome || !isSettable name value then e
  else ⟨e.entries ++ [(name, value)]⟩

/-- Sets every variable that is not set already. -/
def setDefaults (e : Environment) (vars : Variables) : Environment :=
  vars.entries.foldl (fun e (name, value) => e.setDefault name value) e

end Environment

end ImportFinder
