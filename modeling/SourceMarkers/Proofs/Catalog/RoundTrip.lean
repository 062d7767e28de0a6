import SourceMarkers.Proofs.Catalog.Kept

/-!
# Documents that come back

The document of a catalog is read as a catalog again: all its sets, in their
order, with the active name as it was, also when it names no set. No set is
left out, because a written set is always read and the names differ; no marker
is left out, as that is so for each set. What comes back has its paths reread,
so it agrees with a kept catalog and has the same document.

The document is shallow and holds no doubles, so its text reads back as well.

## Main definitions

* `Catalog.carried`: What is read, maybe with another home directory.
* `Catalog.reread`: What comes back.

## Theorems

* `Catalog.ofDocument_toJson_carried`, `Catalog.ofDocument_toJson`: Reading the
  document of a catalog.
* `Catalog.agrees_reread`, `Catalog.toJson_reread`: What comes back agrees with
  a kept catalog and is written like it.
* `Catalog.readable_toJson`: The document has a text that reads back.
-/

namespace SourceMarkers

open Json (Value)

namespace Catalog

/-- What becomes of a catalog that is written with one shorthand and read with
    another. -/
def carried (s t : Shorthand) (c : Catalog) : Catalog :=
  ⟨c.active, c.sets.map (MarkerSet.carried s t)⟩

/-- What comes back of a catalog that is written and read. -/
def reread (s : Shorthand) (c : Catalog) : Catalog := ⟨c.active, c.sets.map (MarkerSet.reread s)⟩

theorem documentParts_toJson (s : Shorthand) (c : Catalog) :
    documentParts (c.toJson s) = .ok (c.active, c.sets.map (MarkerSet.toJson s)) := by
  unfold toJson Value.ofMembers documentParts
  simp only [Json.lookup_orderMembers]
  rfl

/-- Sets with different names are all read, without a warning. -/
theorem readSets_map_toJson (s t : Shorthand) (kept sets : List MarkerSet)
    (h : ((kept.reverse ++ sets).map MarkerSet.name).Nodup) :
    readSets t kept (sets.map (MarkerSet.toJson s)) =
      pure (kept.reverse ++ sets.map (MarkerSet.carried s t)) := by
  induction sets generalizing kept with
  | nil =>
    rw [List.map_nil, List.map_nil, List.append_nil]
    rfl
  | cons set rest ih =>
    -- The names that were kept are those of the sets before this one.
    have hnew : set.name ∉ kept.map MarkerSet.name := by
      intro hmem
      rw [List.map_append, List.map_cons, List.nodup_append] at h
      exact h.2.2 set.name ((mem_names_reverse kept set.name).mpr hmem) set.name
        List.mem_cons_self rfl
    have hrest : (((set.carried s t :: kept).reverse ++ rest).map MarkerSet.name).Nodup := by
      rw [List.map_append, List.map_cons] at h
      rw [List.reverse_cons, List.append_assoc, List.singleton_append, List.map_append]
      exact h
    -- So this one is read and kept, and the rest goes on from there.
    have hread : readSets t kept ((set :: rest).map (MarkerSet.toJson s)) =
        readSets t (set.carried s t :: kept) (rest.map (MarkerSet.toJson s)) := by
      rw [List.map_cons, readSets, MarkerSet.ofJson_toJson]
      show (if set.name ∈ kept.map MarkerSet.name then _ else _) = _
      rw [if_neg hnew]
    rw [hread, ih _ hrest, List.reverse_cons, List.append_assoc]
    rfl

/-- The document of a catalog whose names are unique is read as the catalog
    with its paths carried over, and nothing in it is worth a warning. -/
theorem ofDocument_toJson_carried (s t : Shorthand) (c : Catalog) (h : c.UniqueNames) :
    ofDocument t (c.toJson s) =
      .ok ⟨c.carried s t,
        [⟨.debug, s!"Loaded {c.sets.length} marker sets (active: '{c.active}')"⟩]⟩ := by
  have hsets := readSets_map_toJson s t [] c.sets h
  have hlength : (c.sets.map (MarkerSet.carried s t)).length = c.sets.length := List.length_map _
  unfold ofDocument
  rw [documentParts_toJson]
  simp only [Except.map, hsets, List.reverse_nil, List.nil_append]
  rw [← hlength]
  rfl

/-- Read with the shorthand that it was written with, it gives the catalog with
    its paths reread. -/
theorem ofDocument_toJson (s : Shorthand) (c : Catalog) (h : c.UniqueNames) :
    ofDocument s (c.toJson s) =
      .ok ⟨c.reread s,
        [⟨.debug, s!"Loaded {c.sets.length} marker sets (active: '{c.active}')"⟩]⟩ :=
  ofDocument_toJson_carried s s c h

/-- What comes back of a kept catalog agrees with it. -/
theorem agrees_reread (s : Shorthand) (c : Catalog) (h : c.Kept s) : (c.reread s).Agrees c :=
  ⟨rfl, Pointwise.map_self c.sets fun set hset => set.agrees_reread s (h.clean set hset)⟩

/-- What comes back of a kept catalog has the same document. -/
theorem toJson_reread (s : Shorthand) (c : Catalog) (h : c.Kept s) :
    (c.reread s).toJson s = c.toJson s := by
  have hsets : (c.reread s).sets.map (MarkerSet.toJson s) = c.sets.map (MarkerSet.toJson s) := by
    rw [reread, List.map_map]
    exact List.map_congr_left fun set hset => set.toJson_reread s (h.clean set hset)
  unfold toJson
  rw [hsets]
  rfl

theorem readable_toJson (s : Shorthand) (c : Catalog) : (c.toJson s).Readable 5 := by
  have hsets : (Value.array (c.sets.map (MarkerSet.toJson s))).Readable 4 := by
    rw [Value.readable_array_iff, List.forall_mem_map]
    exact fun set _ => set.readable_toJson s
  refine Value.readable_ofMembers 4 _ ?_
  simp only [List.forall_mem_cons]
  exact ⟨Value.readable_string 4 _, hsets, List.forall_mem_nil _⟩

end Catalog

end SourceMarkers
