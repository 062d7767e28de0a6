import SourceMarkers.Log
import SourceMarkers.Marker.Agreement

/-!
# The catalog of marker sets

The marker sets of a session in the order in which their names first came, and
the name of the active one. A set shown again takes the place of the one with
its name. The active name may name no set, after a document said so; then there
is no active set.

Removing is by name and takes the first set that has it. Names are unique in
every catalog that the operations reach, which is `UniqueNames`; a catalog is
settled when its active name names a set, or when both are missing.

## Main definitions

* `Catalog`: Sets and active name.
* `Catalog.find?`, `Catalog.active?`: A set by its name, and the active one.
* `Catalog.clear`, `Catalog.activate`, `Catalog.put`, `Catalog.clearActive`:
  The operations.
* `Catalog.Agrees`: Equality up to the spelling of paths.
* `Catalog.UniqueNames`, `Catalog.Settled`: What the operations keep.

## Theorems

* `Catalog.map_name_upsert`: The names after a set was put.
* `Catalog.find?_upsert_self`: The set that was put is found.
-/

namespace SourceMarkers

/-- The marker sets of a session and the name of the active one. -/
structure Catalog where
  active : String
  sets : List MarkerSet
deriving DecidableEq

namespace Catalog

/-- No sets, and no active name. -/
def empty : Catalog := ⟨"", []⟩

/-- The set with a name. -/
def find? (c : Catalog) (name : String) : Option MarkerSet :=
  c.sets.find? fun set => set.name == name

/-- The active set. -/
def active? (c : Catalog) : Option MarkerSet := c.find? c.active

/-- The names of the sets, in order. -/
def names (c : Catalog) : List String := c.sets.map MarkerSet.name

/-- Forgets all sets. -/
def clear (_ : Catalog) : Catalog := empty

/-- Makes the set with a name active, if there is one. -/
def activate (c : Catalog) (name : String) : Logged Catalog :=
  if name ∈ c.names then pure { c with active := name }
  else do
    Logged.tell .debug s!"Ignoring switch to unknown marker set '{name}'"
    pure c

/-- Puts a set in the place of the first one with its name, or at the end. -/
def upsert (set : MarkerSet) : List MarkerSet → List MarkerSet
  | [] => [set]
  | held :: rest => if held.name = set.name then set :: rest else held :: upsert set rest

/-- A set that is put in place of another keeps the names as they are, and a
    new one comes last. -/
theorem map_name_upsert (set : MarkerSet) (sets : List MarkerSet) :
    (upsert set sets).map MarkerSet.name =
      if set.name ∈ sets.map MarkerSet.name then sets.map MarkerSet.name
      else sets.map MarkerSet.name ++ [set.name] := by
  induction sets with
  | nil => rfl
  | cons held rest ih =>
    by_cases h : held.name = set.name
    · simp only [upsert, List.map_cons, h, List.mem_cons, true_or, if_true]
    · rw [upsert, if_neg h, List.map_cons, ih, List.map_cons]
      by_cases hrest : set.name ∈ rest.map MarkerSet.name
      · rw [if_pos hrest, if_pos (List.mem_cons_of_mem _ hrest)]
      · have hnew : set.name ∉ held.name :: rest.map MarkerSet.name := by
          intro hmem
          rcases List.mem_cons.mp hmem with hname | hmem
          · exact h hname.symm
          · exact hrest hmem
        rw [if_neg hrest, if_neg hnew, List.cons_append]

/-- The set that was put is found by its name. -/
theorem find?_upsert_self (set : MarkerSet) (sets : List MarkerSet) :
    (upsert set sets).find? (fun held => held.name == set.name) = some set := by
  induction sets with
  | nil => simp only [upsert, List.find?_cons, beq_self_eq_true]
  | cons held rest ih =>
    by_cases h : held.name = set.name
    · simp only [upsert, if_pos h, List.find?_cons, beq_self_eq_true]
    · rw [upsert, if_neg h, List.find?_cons_of_neg (by simpa using h), ih]

/-- Takes a set in and makes it active. -/
def put (c : Catalog) (set : MarkerSet) : Catalog :=
  ⟨set.name, upsert set c.sets⟩

/-- Removes the active set and makes the last of the others active. -/
def clearActive (c : Catalog) : Catalog :=
  let rest := c.sets.eraseP fun set => set.name == c.active
  ⟨(rest.getLast?.map MarkerSet.name).getD "", rest⟩

/-- Equality up to the spelling of the paths. -/
def Agrees (a b : Catalog) : Prop :=
  a.active = b.active ∧ Pointwise MarkerSet.Agrees a.sets b.sets

instance (a b : Catalog) : Decidable (a.Agrees b) := by
  unfold Agrees; infer_instance

/-- No two sets have the same name. -/
def UniqueNames (c : Catalog) : Prop := c.names.Nodup

/-- The active name names a set, or there are no sets and no active name. -/
def Settled (c : Catalog) : Prop :=
  c.active ∈ c.names ∨ (c.sets = [] ∧ c.active = "")

end Catalog

end SourceMarkers
