import SourceMarkers.Proofs.Catalog.RoundTrip

/-!
# Catalogs that are written alike

Two marker sets are alike when they are written in the same way, and two
catalogs when their sets are, in order, and the active names are equal. Alike
catalogs have the same document and the same view, so nobody who only reads
what is written can tell them apart. The paths in them need not even agree:
writing forgets what is no text.

The point is that no operation can tell alike catalogs apart either. An
operation looks at names only, and the name is part of what is written. So a
catalog may be replaced by what comes back of it, in the middle of a run of
operations, without a difference that anyone could ever see.

## Main definitions

* `MarkerSet.Alike`, `Catalog.Alike`: Written alike.

## Theorems

* `Pointwise.upsert`, `Pointwise.eraseP`, `Pointwise.find?`: Operations on two
  lists of sets with the same names.
* `Catalog.Alike.toJson_eq`, `Catalog.Alike.view_eq`: The same document and the
  same view.
* `Catalog.Alike.put`, `Catalog.Alike.activate`, `Catalog.Alike.clearActive`:
  Alike catalogs stay alike.
* `Catalog.alike_reread`: What comes back is alike.
-/

namespace SourceMarkers

open Json (Value)

namespace Pointwise

/-! ## Lists of sets with the same names -/

variable {r : MarkerSet → MarkerSet → Prop} (hr : ∀ a b, r a b → a.name = b.name)

include hr

theorem upsert {set set' : MarkerSet} (hset : r set set') :
    ∀ {as bs : List MarkerSet}, Pointwise r as bs →
      Pointwise r (Catalog.upsert set as) (Catalog.upsert set' bs)
  | [], [], _ => ⟨hset, trivial⟩
  | a :: as, b :: bs, h => by
    unfold Catalog.upsert
    rw [hr a b h.1, hr set set' hset]
    -- As the names are equal, both lists are changed in the same place.
    by_cases hname : b.name = set'.name
    · rw [if_pos hname, if_pos hname]
      exact ⟨hset, h.2⟩
    · rw [if_neg hname, if_neg hname]
      exact ⟨h.1, upsert hset h.2⟩

theorem eraseP (name : String) :
    ∀ {as bs : List MarkerSet}, Pointwise r as bs →
      Pointwise r (as.eraseP fun set => set.name == name) (bs.eraseP fun set => set.name == name)
  | [], [], _ => trivial
  | a :: as, b :: bs, h => by
    rw [List.eraseP_cons, List.eraseP_cons, hr a b h.1]
    by_cases hname : (b.name == name) = true
    · rw [hname, cond_true, cond_true]
      exact h.2
    · rw [Bool.not_eq_true] at hname
      rw [hname, cond_false, cond_false]
      exact ⟨h.1, eraseP name h.2⟩

/-- What is found under a name in two such lists is related, or is in neither. -/
theorem find? (name : String) :
    ∀ {as bs : List MarkerSet}, Pointwise r as bs →
      ((as.find? fun set => set.name == name) = none ∧
        (bs.find? fun set => set.name == name) = none) ∨
      ∃ a b, (as.find? fun set => set.name == name) = some a ∧
        (bs.find? fun set => set.name == name) = some b ∧ r a b
  | [], [], _ => Or.inl ⟨rfl, rfl⟩
  | a :: as, b :: bs, h => by
    rw [List.find?_cons, List.find?_cons, hr a b h.1]
    by_cases hname : (b.name == name) = true
    · rw [hname]
      exact Or.inr ⟨a, b, rfl, rfl, h.1⟩
    · rw [Bool.not_eq_true] at hname
      rw [hname]
      exact find? name h.2

end Pointwise

namespace MarkerSet

/-- The two sets are written in the same way. -/
def Alike (s : Shorthand) (a b : MarkerSet) : Prop := a.toJson s = b.toJson s

theorem member?_name_toJson (s : Shorthand) (set : MarkerSet) :
    (set.toJson s).member? "name" = some (.string set.name) := by
  rw [toJson, Value.member?_ofMembers]
  rfl

-- The name is written, so it can be read off.
theorem name_eq_of_alike (s : Shorthand) (a b : MarkerSet) (h : a.Alike s b) : a.name = b.name := by
  have hname : (a.toJson s).member? "name" = (b.toJson s).member? "name" := by rw [h]
  rw [member?_name_toJson, member?_name_toJson, Option.some.injEq, Value.string.injEq] at hname
  exact hname

end MarkerSet

namespace Catalog

/-! ## Alike catalogs -/

/-- The two catalogs are written in the same way. -/
structure Alike (s : Shorthand) (a b : Catalog) : Prop where
  active : a.active = b.active
  sets : Pointwise (MarkerSet.Alike s) a.sets b.sets

namespace Alike

variable {s : Shorthand} {a b : Catalog}

theorem refl (s : Shorthand) (c : Catalog) : c.Alike s c :=
  ⟨rfl, Pointwise.refl (r := MarkerSet.Alike s) (fun _ => rfl) c.sets⟩

theorem names_eq (h : a.Alike s b) : a.names = b.names :=
  Pointwise.map_eq (MarkerSet.name_eq_of_alike s) h.sets

theorem toJson_eq (h : a.Alike s b) : a.toJson s = b.toJson s := by
  have hsets : a.sets.map (MarkerSet.toJson s) = b.sets.map (MarkerSet.toJson s) :=
    Pointwise.map_eq (fun _ _ hset => hset) h.sets
  unfold toJson
  rw [h.active, hsets]

/-- Alike catalogs look the same. -/
theorem view_eq (h : a.Alike s b) : a.view s = b.view s := by
  have hfound := Pointwise.find? (MarkerSet.name_eq_of_alike s) b.active h.sets
  unfold view active? Catalog.find?
  rw [h.active]
  rcases hfound with ⟨ha, hb⟩ | ⟨set, set', ha, hb, hset⟩
  · simp only [ha, hb]
  · -- The active set is written alike, and so are the names of all sets.
    have hjson : set.toJson s = set'.toJson s := hset
    simp only [ha, hb, hjson, h.names_eq]

theorem put {set set' : MarkerSet} (hset : set.Alike s set') (h : a.Alike s b) :
    (a.put set).Alike s (b.put set') :=
  ⟨MarkerSet.name_eq_of_alike s set set' hset,
    Pointwise.upsert (MarkerSet.name_eq_of_alike s) hset h.sets⟩

theorem activate (name : String) (h : a.Alike s b) :
    (a.activate name).value.Alike s (b.activate name).value := by
  unfold Catalog.activate
  rw [h.names_eq]
  -- The name is known in both catalogs or in neither.
  by_cases hname : name ∈ b.names
  · rw [if_pos hname, if_pos hname]
    exact ⟨rfl, h.sets⟩
  · rw [if_neg hname, if_neg hname]
    exact h

theorem clearActive (h : a.Alike s b) : a.clearActive.Alike s b.clearActive := by
  have hsets := Pointwise.eraseP (MarkerSet.name_eq_of_alike s) b.active h.sets
  -- The new active name is the last of the names that are left.
  have hnames := Pointwise.map_eq (MarkerSet.name_eq_of_alike s) hsets
  unfold Catalog.clearActive
  rw [h.active]
  refine ⟨?_, hsets⟩
  show (Option.map _ _).getD "" = (Option.map _ _).getD ""
  rw [← List.getLast?_map, ← List.getLast?_map, hnames]

end Alike

/-- What comes back of a kept catalog is alike. -/
theorem alike_reread (s : Shorthand) (c : Catalog) (h : c.Kept s) : (c.reread s).Alike s c :=
  ⟨rfl, Pointwise.map_self c.sets fun set hset => set.toJson_reread s (h.clean set hset)⟩

end Catalog

end SourceMarkers
