import Mathlib.Data.List.Nodup
import SourceMarkers.Catalog.Document
import SourceMarkers.Proofs.Marker.RoundTrip

/-!
# What a catalog keeps

Two things hold of a catalog from its first moment on: no two of its sets have
the same name, and all paths in it come back from their texts. The first is
what a document can lose, as only the first of two sets with one name is read
back; the second is what makes a path survive being written. Every operation
keeps both, given that a set that is put was itself read, and every document
that is read gives a catalog that has both.

The active name is not part of it. A document may name an active set that is
not there, and such a name stays until an operation replaces it.

## Main definitions

* `Catalog.Kept`: Names are unique and paths come back.
* `Catalog.IsDocument`: What a document has to hold.

## Theorems

* `Catalog.uniqueNames_put`, `Catalog.uniqueNames_activate`,
  `Catalog.uniqueNames_clearActive`: Names stay unique.
* `Catalog.kept_empty`, `Catalog.kept_put`, `Catalog.kept_activate`,
  `Catalog.kept_clearActive`: The operations keep both.
* `Catalog.documentParts_eq_ok_iff`: The parts of a document.
* `Catalog.kept_of_ofDocument`: A catalog that was read has it.
-/

namespace SourceMarkers

open Json (Value)

namespace Catalog

/-- What holds of a catalog through all operations. -/
structure Kept (s : Shorthand) (c : Catalog) : Prop where
  unique : c.UniqueNames
  clean : ∀ set ∈ c.sets, set.Clean s

theorem kept_empty (s : Shorthand) : empty.Kept s :=
  ⟨List.nodup_nil, fun _ h => absurd h List.not_mem_nil⟩

/-! ## Operations -/

theorem mem_upsert (set other : MarkerSet) (sets : List MarkerSet) (h : other ∈ upsert set sets) :
    other = set ∨ other ∈ sets := by
  induction sets with
  | nil => exact Or.inl (List.mem_singleton.mp h)
  | cons held rest ih =>
    rw [upsert] at h
    split at h
    · -- The set stands where `held` stood.
      exact (List.mem_cons.mp h).imp_right (List.mem_cons_of_mem _)
    · rcases List.mem_cons.mp h with rfl | hrest
      · exact Or.inr List.mem_cons_self
      · exact (ih hrest).imp_right (List.mem_cons_of_mem _)

theorem nodup_map_name_upsert (set : MarkerSet) (sets : List MarkerSet)
    (h : (sets.map MarkerSet.name).Nodup) : ((upsert set sets).map MarkerSet.name).Nodup := by
  rw [map_name_upsert]
  -- A name that is there stays in its place, and a new one goes to the end.
  split
  · exact h
  · next hnew =>
    rw [List.nodup_append]
    refine ⟨h, List.nodup_singleton _, fun name hname other hother heq => ?_⟩
    rw [List.mem_singleton] at hother
    rw [heq, hother] at hname
    exact hnew hname

theorem uniqueNames_put (c : Catalog) (set : MarkerSet) (h : c.UniqueNames) :
    (c.put set).UniqueNames := nodup_map_name_upsert set c.sets h

theorem uniqueNames_activate (c : Catalog) (name : String) (h : c.UniqueNames) :
    (c.activate name).value.UniqueNames := by
  rw [activate]
  split <;> exact h

theorem uniqueNames_clearActive (c : Catalog) (h : c.UniqueNames) :
    c.clearActive.UniqueNames := h.sublist (List.eraseP_sublist.map MarkerSet.name)

theorem kept_put (s : Shorthand) (c : Catalog) (set : MarkerSet) (h : c.Kept s)
    (hset : set.Clean s) : (c.put set).Kept s := by
  refine ⟨uniqueNames_put c set h.unique, fun other hother => ?_⟩
  rcases mem_upsert set other c.sets hother with rfl | hold
  · exact hset
  · exact h.clean other hold

theorem kept_activate (s : Shorthand) (c : Catalog) (name : String) (h : c.Kept s) :
    (c.activate name).value.Kept s := by
  refine ⟨uniqueNames_activate c name h.unique, ?_⟩
  rw [activate]
  split <;> exact h.clean

theorem kept_clearActive (s : Shorthand) (c : Catalog) (h : c.Kept s) : c.clearActive.Kept s :=
  ⟨uniqueNames_clearActive c h.unique, fun set hset => h.clean set (List.eraseP_sublist.mem hset)⟩

/-! ## Documents -/

/-- The document has an active name and a list of sets. -/
def IsDocument (doc : Value) (active : String) (values : List Value) : Prop :=
  doc.member? "active_set" = some (.string active) ∧ doc.member? "sets" = some (.array values)

/-- The parts of a document are the members with these names. -/
theorem documentParts_eq_ok_iff (doc : Value) (active : String) (values : List Value) :
    documentParts doc = .ok (active, values) ↔ IsDocument doc active values := by
  cases doc with
  | object members =>
    show _ ↔ members.lookup "active_set" = some (.string active) ∧
      members.lookup "sets" = some (.array values)
    rw [documentParts]
    constructor
    · intro h
      -- Only a name and a list together are the parts of a document.
      split at h
      · exact absurd h (by simp only [reduceCtorEq, not_false_eq_true])
      · next name hname =>
        split at h
        · exact absurd h (by simp only [reduceCtorEq, not_false_eq_true])
        · next sets hsets =>
          rw [Except.ok.injEq, Prod.mk.injEq] at h
          rw [← h.1, ← h.2]
          exact ⟨hname, hsets⟩
        · exact absurd h (by simp only [reduceCtorEq, not_false_eq_true])
      · exact absurd h (by simp only [reduceCtorEq, not_false_eq_true])
    · rintro ⟨hactive, hsets⟩
      simp only [hactive, hsets]
  | _ =>
    constructor
    · exact fun h => absurd h (by simp only [documentParts, reduceCtorEq, not_false_eq_true])
    · exact fun h => absurd h.1.symm (Option.some_ne_none _)

/-- The names that are taken are the same from either end of the list. -/
theorem mem_names_reverse (sets : List MarkerSet) (name : String) :
    name ∈ sets.reverse.map MarkerSet.name ↔ name ∈ sets.map MarkerSet.name := by
  rw [List.map_reverse, List.mem_reverse]

/-- Reading adds only sets with new names to those that are kept already, and
    all of them are clean. -/
theorem kept_of_readSets (s : Shorthand) (active : String) (kept : List MarkerSet)
    (values : List Value) (h : Kept s ⟨active, kept.reverse⟩) :
    Kept s ⟨active, (readSets s kept values).value⟩ := by
  induction values generalizing kept with
  | nil => exact h
  | cons v rest ih =>
    rw [readSets, Logged.value_bind]
    split
    · -- The value is no marker set.
      exact ih kept h
    · next set hset =>
      split
      · -- The name was there before.
        exact ih kept h
      · next hnew =>
        refine ih (set :: kept) ⟨?_, fun other hother => ?_⟩
        · show ((set :: kept).reverse.map MarkerSet.name).Nodup
          have hold : (kept.reverse.map MarkerSet.name).Nodup := h.unique
          rw [List.map_reverse, List.nodup_reverse] at hold ⊢
          exact List.nodup_cons.mpr ⟨hnew, hold⟩
        · rcases List.mem_cons.mp (List.mem_reverse.mp hother) with rfl | hold
          · exact MarkerSet.clean_of_ofJson s v other hset
          · exact h.clean other (List.mem_reverse.mpr hold)

/-- A catalog that was read has the active name of its document, and those of
    its sets that can be read. -/
theorem value_of_ofDocument (s : Shorthand) (doc : Value) (read : Logged Catalog)
    (h : ofDocument s doc = .ok read) :
    ∃ active values, documentParts doc = .ok (active, values) ∧
      read.value = ⟨active, (readSets s [] values).value⟩ := by
  rw [ofDocument] at h
  cases hparts : documentParts doc with
  | error f =>
    rw [hparts] at h
    exact absurd h (by simp only [Except.map, reduceCtorEq, not_false_eq_true])
  | ok parts =>
    rw [hparts] at h
    simp only [Except.map, Except.ok.injEq] at h
    exact ⟨parts.1, parts.2, rfl, by rw [← h]; rfl⟩

/-- A catalog that was read from a document is kept. -/
theorem kept_of_ofDocument (s : Shorthand) (doc : Value) (read : Logged Catalog)
    (h : ofDocument s doc = .ok read) : read.value.Kept s := by
  rcases value_of_ofDocument s doc read h with ⟨active, values, _, hvalue⟩
  rw [hvalue]
  exact kept_of_readSets s active [] values ⟨List.nodup_nil, (kept_empty s).clean⟩

end Catalog

end SourceMarkers
