import SourceMarkers.Marker.Agreement
import SourceMarkers.Proofs.Json.Record
import SourceMarkers.Proofs.Marker.BasePath

/-!
# Markers that come back

What a written marker or marker set is read as: the same, but for the paths,
which are the ones that their texts stand for. Nothing is refused and nothing is
left out on the way, whatever the marker is, and also when the texts are read
with another home directory than they were written with. `carried` is that value
for two shorthands, and `reread` for one.

Which of the paths come back is a question about paths alone. With clean paths
the reread value agrees with the original, and it is written in the very same
way. Everything that is read is made of clean paths, so what was read once
comes back ever after.

## Main definitions

* `Marker.carried`, `MarkerSet.carried`: What is read.
* `Marker.reread`, `MarkerSet.reread`: What comes back.
* `MarkerSet.Clean`: All paths of the set come back.

## Theorems

* `Marker.ofJson_toJson`, `MarkerSet.ofJson_toJson`: Reading what was written.
* `MarkerSet.agrees_reread`, `MarkerSet.toJson_reread`: What comes back agrees
  with a clean original and is written like it.
* `MarkerSet.clean_of_ofJson`: A set that was read is clean.
* `MarkerSet.readable_toJson`: A written set has a text that reads back.
-/

namespace SourceMarkers

open Json (Value Mismatch)

namespace MarkerKind

theorem ofCode?_code (kind : MarkerKind) : ofCode? kind.code = some kind := by
  cases kind <;> rfl

theorem int64_code (kind : MarkerKind) : (Value.ofInt kind.code).int64 = .ok kind.code := by
  cases kind <;> rfl

theorem fitsWhole_code (kind : MarkerKind) : Value.FitsWhole kind.code := by
  cases kind <;> exact ⟨by decide, by decide⟩

end MarkerKind

namespace Marker

/-! ## One marker -/

/-- What becomes of a marker that is written with one shorthand and read with
    another. -/
def carried (s t : Shorthand) (m : Marker) : Marker :=
  { m with path := t.expand (s.shorten m.path) }

/-- What comes back of a marker that is written and read. -/
def reread (s : Shorthand) (m : Marker) : Marker := { m with path := s.expand (s.shorten m.path) }

/-- The fields of a written marker are read one by one. -/
theorem fieldsOfJson_toJson (s : Shorthand) (m : Marker) :
    Fields.ofJson (m.toJson s) =
      .ok ⟨m.kind.code, s.shorten m.path, m.line, m.column, m.message, m.showInErrorList⟩ := by
  -- The members are written in order of their names, and read by name.
  rw [toJson, Value.ofMembers, Fields.ofJson, Fields.ofMembers,
    Json.field?_orderMembers _ "column" _ _ _ rfl (Value.int32_ofInt m.column),
    Json.field?_orderMembers _ "line" _ _ _ rfl (Value.int32_ofInt m.line),
    Json.field?_orderMembers _ "message" Value.text _ _ rfl rfl,
    Json.field?_orderMembers _ "path" Value.text _ _ rfl rfl,
    Json.field?_orderMembers _ "show_error_list" Value.flag _ _ rfl rfl,
    Json.field?_orderMembers _ "type" _ _ _ rfl m.kind.int64_code]
  rfl

/-- A written marker is read as the marker with its path carried over. -/
theorem ofJson_toJson (s t : Shorthand) (m : Marker) :
    ofJson t (m.toJson s) = .ok (m.carried s t) := by
  rw [ofJson, fieldsOfJson_toJson]
  simp only [ofFields, MarkerKind.ofCode?_code]
  rfl

theorem agrees_reread (s : Shorthand) (m : Marker) (h : s.Clean m.path) : (m.reread s).Agrees m :=
  ⟨rfl, Shorthand.expand_shorten s m.path h, rfl, rfl, rfl, rfl⟩

theorem toJson_reread (s : Shorthand) (m : Marker) (h : s.Clean m.path) :
    (m.reread s).toJson s = m.toJson s := by
  rw [toJson, toJson, reread, Shorthand.shorten_expand_shorten s m.path h]

/-- The path of a marker that was read is clean. -/
theorem clean_of_ofJson (s : Shorthand) (v : Value) (m : Marker) (h : ofJson s v = .ok m) :
    s.Clean m.path := by
  rw [ofJson] at h
  split at h
  · exact absurd h (by simp only [reduceCtorEq, not_false_eq_true])
  · -- Whatever the other fields are, the path was read from a text.
    next f _ =>
    rw [ofFields] at h
    split at h
    · exact absurd h (by simp only [reduceCtorEq, not_false_eq_true])
    · rw [Except.ok.injEq] at h
      rw [← h]
      exact Shorthand.clean_expand s f.path

theorem readable_toJson (s : Shorthand) (m : Marker) : (m.toJson s).Readable 1 := by
  refine Value.readable_ofMembers 0 _ ?_
  simp only [List.forall_mem_cons]
  exact ⟨Value.readable_ofInt 0 _ m.kind.fitsWhole_code, Value.readable_string 0 _,
    Value.readable_ofInt 0 _ (Value.fitsWhole_int32 m.line),
    Value.readable_ofInt 0 _ (Value.fitsWhole_int32 m.column), Value.readable_string 0 _,
    Value.readable_bool 0 _, List.forall_mem_nil _⟩

end Marker

namespace MarkerSet

/-! ## A set of markers -/

/-- What becomes of a marker set that is written with one shorthand and read with
    another. -/
def carried (s t : Shorthand) (set : MarkerSet) : MarkerSet where
  name := set.name
  basePath := set.basePath.map fun base => t.expand (baseText s base)
  markers := set.markers.map (Marker.carried s t)

/-- What comes back of a marker set that is written and read. -/
def reread (s : Shorthand) (set : MarkerSet) : MarkerSet where
  name := set.name
  basePath := set.basePath.map fun base => s.expand (baseText s base)
  markers := set.markers.map (Marker.reread s)

/-- All paths of the set come back, up to their spelling. -/
structure Clean (s : Shorthand) (set : MarkerSet) : Prop where
  markers : ∀ m ∈ set.markers, s.Clean m.path
  base : ∀ base, set.basePath = some base → CleanBase s base

theorem text?_ofString? (text? : Option String) : (Value.ofString? text?).text? = .ok text? := by
  cases text? <;> rfl

/-- The fields of a written set are read one by one. -/
theorem fieldsOfJson_toJson (s : Shorthand) (set : MarkerSet) :
    Fields.ofJson (set.toJson s) =
      .ok ⟨set.name, set.basePath.map (baseText s), set.markers.map (Marker.toJson s)⟩ := by
  rw [toJson, Value.ofMembers, Fields.ofJson, Fields.ofMembers,
    Json.field?_orderMembers _ "base_path" _ _ _ rfl (text?_ofString? _),
    Json.field?_orderMembers _ "markers" Value.list _ _ rfl rfl,
    Json.field?_orderMembers _ "name" Value.text _ _ rfl rfl]
  rfl

/-- Written markers are all read, without a warning. -/
theorem readMarkers_map_toJson (s t : Shorthand) (name : String) (markers : List Marker) :
    readMarkers t name (markers.map (Marker.toJson s)) =
      pure (markers.map (Marker.carried s t)) := by
  induction markers with
  | nil => rfl
  | cons m rest ih =>
    rw [List.map_cons, readMarkers]
    simp only [Marker.ofJson_toJson, ih]
    rfl

/-- The text of a base path is never taken for none. -/
theorem baseOf?_map_baseText (s t : Shorthand) (base? : Option Path) :
    baseOf? t (base?.map (baseText s)) = base?.map fun base => t.expand (baseText s base) := by
  cases base? with
  | none => rfl
  | some base =>
    -- Only an empty text stands for no base path, and this one has a slash.
    have hne : (!(baseText s base).isEmpty) = true := by
      rw [Bool.not_eq_true', ← Bool.not_eq_true, String.isEmpty_iff]
      exact baseText_ne_empty s base
    rw [baseOf?, Option.map_some, Option.filter_some, if_pos hne, Option.map_some, Option.map_some]

/-- A written set is read as the set with its paths carried over, without a
    warning. -/
theorem ofJson_toJson (s t : Shorthand) (set : MarkerSet) :
    ofJson t (set.toJson s) = pure (.ok (set.carried s t)) := by
  rw [ofJson, fieldsOfJson_toJson]
  simp only [readMarkers_map_toJson, baseOf?_map_baseText]
  rfl

/-- What comes back of a clean set agrees with it. -/
theorem agrees_reread (s : Shorthand) (set : MarkerSet) (h : set.Clean s) :
    (set.reread s).Agrees set := by
  refine ⟨rfl, ?_, ?_⟩
  · cases hbase : set.basePath with
    | none => simp only [reread, hbase, Option.map_none, SameOptional]
    | some base =>
      simp only [reread, hbase, Option.map_some, SameOptional]
      exact expand_baseText s base (h.base base hbase)
  · exact Pointwise.map_self set.markers fun m hm => m.agrees_reread s (h.markers m hm)

/-- What comes back of a clean set is written like it. -/
theorem toJson_reread (s : Shorthand) (set : MarkerSet) (h : set.Clean s) :
    (set.reread s).toJson s = set.toJson s := by
  have hbase : (set.reread s).basePath.map (baseText s) = set.basePath.map (baseText s) := by
    rw [reread, Option.map_map]
    exact Option.map_congr fun base hbase => baseText_expand_baseText s base (h.base base hbase)
  have hmarkers : (set.reread s).markers.map (Marker.toJson s) =
      set.markers.map (Marker.toJson s) := by
    rw [reread, List.map_map]
    exact List.map_congr_left fun m hm => m.toJson_reread s (h.markers m hm)
  rw [toJson, toJson, hbase, hmarkers]
  rfl

/-- Markers that were read are clean. -/
theorem clean_of_mem_readMarkers (s : Shorthand) (name : String) (values : List Value) (m : Marker)
    (h : m ∈ (readMarkers s name values).value) : s.Clean m.path := by
  induction values with
  | nil => exact absurd h List.not_mem_nil
  | cons v rest ih =>
    rw [readMarkers] at h
    -- The first value is read or left out, and the rest does not depend on it.
    split at h
    · next first hfirst =>
      rcases List.mem_cons.mp h with rfl | hrest
      · exact Marker.clean_of_ofJson s v m hfirst
      · exact ih hrest
    · exact ih h

/-- A set that was read is clean. -/
theorem clean_of_ofJson (s : Shorthand) (v : Value) (set : MarkerSet)
    (h : (ofJson s v).value = .ok set) : set.Clean s := by
  rw [ofJson] at h
  split at h
  · exact absurd h (by simp only [Logged.value_pure, reduceCtorEq, not_false_eq_true])
  · next f _ =>
    rw [Logged.value_bind, Logged.value_pure, Except.ok.injEq] at h
    rw [← h]
    refine ⟨fun m hm => clean_of_mem_readMarkers s f.name f.markers m hm, fun base hbase => ?_⟩
    rw [baseOf?, Option.map_eq_some_iff] at hbase
    rcases hbase with ⟨text, htext, rfl⟩
    -- An empty text was taken for none before it was read.
    have hne := Option.filter_eq_some_iff.mp htext
    refine cleanBase_expand s text fun hempty => ?_
    rw [hempty] at hne
    exact absurd hne.2 (by decide)

theorem readable_toJson (s : Shorthand) (set : MarkerSet) : (set.toJson s).Readable 3 := by
  have hmarkers : (Value.array (set.markers.map (Marker.toJson s))).Readable 2 := by
    rw [Value.readable_array_iff, List.forall_mem_map]
    exact fun m _ => m.readable_toJson s
  refine Value.readable_ofMembers 2 _ ?_
  simp only [List.forall_mem_cons]
  exact ⟨Value.readable_string 2 _, Value.readable_ofString? 2 _, hmarkers, List.forall_mem_nil _⟩

end MarkerSet

end SourceMarkers
