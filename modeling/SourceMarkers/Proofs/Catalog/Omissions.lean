import SourceMarkers.Proofs.Catalog.Neighbours

/-!
# What is left out of a document

Three things are left out when a document is read: a set that is no record, a set
whose name is taken, and in a set a value that is no marker. Each of them is worth one
warning, and nothing else is. The warnings come in the order of the document, with
those about the markers of a set in front of the one that its name is taken: a set is
read as a whole before its name is looked at.

`omittedAt` says what is left out at one place of the list of sets. It looks at what
stands in front, but only for the names that are taken. So each place can be counted
alone: a set is kept or it is left out (`length_setsOf_concat`), and in a set that is
kept each value is a marker or it is left out (`length_markers_add_omitted`).

## Main definitions

* `Omission`, `Omission.entry`: Something left out, and the warning about it.
* `Catalog.omittedAt`, `Catalog.omitted`: What is left out at a place, and in a list
  of sets.

## Theorems

* `Catalog.setsOf_concat_of_none`, `Catalog.setsOf_concat_of_taken`,
  `Catalog.setsOf_concat_of_new`: The sets with one value more.
* `Catalog.length_setsOf_add_omitted`: The sets that are kept and left out.
* `MarkerSet.log_ofJson`, `Catalog.log_readSets`, `Catalog.log_of_ofDocument`: What is
  logged.
* `Catalog.exists_place_of_mem_setsOf`: Where a set that is kept comes from.
* `Catalog.length_markers_add_omitted`: Its markers that are kept and left out.
-/

namespace SourceMarkers

open Json (Value)

/-- Something that is left out of a document. -/
inductive Omission where
  /-- A value that is no marker, in a set with this name. -/
  | badMarker (name : String) (fault : ItemFault)
  /-- A value that is no set. -/
  | badSet (fault : ItemFault)
  /-- A set with a name that another one in front of it has. -/
  | nameTaken (name : String)

namespace Omission

/-- The warning about it. -/
def entry : Omission → Entry
  | .badMarker name fault => ⟨.warn, s!"Skipping marker in set '{name}': {fault.message}"⟩
  | .badSet fault => ⟨.warn, s!"Skipping marker set: {fault.message}"⟩
  | .nameTaken name => ⟨.warn, s!"Skipping duplicate marker set '{name}'"⟩

/-- A whole set is left out. -/
def ofSet : Omission → Bool
  | .badMarker _ _ => false
  | .badSet _ => true
  | .nameTaken _ => true

theorem level_entry (o : Omission) : o.entry.level = .warn := by
  cases o <;> rfl

end Omission

namespace Marker

/-- The fault of a value that is no marker. -/
def fault? (s : Shorthand) (v : Value) : Option ItemFault :=
  match ofJson s v with
  | .ok _ => none
  | .error fault => some fault

theorem fault?_of_ok {s : Shorthand} {v : Value} {m : Marker} (h : ofJson s v = .ok m) :
    fault? s v = none := by
  rw [fault?, h]

theorem fault?_of_error {s : Shorthand} {v : Value} {fault : ItemFault}
    (h : ofJson s v = .error fault) : fault? s v = some fault := by
  rw [fault?, h]

/-- Each value is a marker or has a fault. -/
theorem length_filterMap_add (s : Shorthand) (values : List Value) :
    (values.filterMap (read? s)).length + (values.filterMap (fault? s)).length =
      values.length := by
  induction values with
  | nil => rfl
  | cons v rest ih =>
    cases hread : ofJson s v with
    | ok m =>
      rw [List.filterMap_cons_some (read?_of_ok hread),
        List.filterMap_cons_none (fault?_of_ok hread), List.length_cons, List.length_cons]
      omega
    | error fault =>
      rw [List.filterMap_cons_none (read?_of_error hread),
        List.filterMap_cons_some (fault?_of_error hread), List.length_cons, List.length_cons]
      omega

end Marker

namespace MarkerSet

/-- The markers that are left out of a set with these fields. -/
def omitted (s : Shorthand) (f : Fields) : List Omission :=
  (f.markers.filterMap (Marker.fault? s)).map (Omission.badMarker f.name)

theorem log_readMarkers (s : Shorthand) (name : String) (values : List Value) :
    (readMarkers s name values).log =
      ((values.filterMap (Marker.fault? s)).map (Omission.badMarker name)).map Omission.entry := by
  induction values with
  | nil => rfl
  | cons v rest ih =>
    rw [readMarkers]
    cases hread : Marker.ofJson s v with
    | ok m =>
      rw [List.filterMap_cons_none (Marker.fault?_of_ok hread), ← ih]
      simp only [Logged.log_bind, Logged.log_pure, List.append_nil]
    | error fault =>
      rw [List.filterMap_cons_some (Marker.fault?_of_error hread), List.map_cons, List.map_cons,
        ← ih]
      rfl

/-- Reading a set logs what is left out of it. -/
theorem log_ofJson (s : Shorthand) (v : Value) (f : Fields) (h : Fields.ofJson v = .ok f) :
    (ofJson s v).log = (omitted s f).map Omission.entry := by
  rw [ofJson, h, omitted, ← log_readMarkers]
  simp only [Logged.log_bind, Logged.log_pure, List.append_nil]

end MarkerSet

namespace Catalog

/-- What is left out at one place of a list of sets, behind the values in `front`: the
    whole set if it cannot be read, and else the markers that cannot be read, and the
    set after all if one that is kept has its name. -/
def omittedAt (s : Shorthand) (front : List Value) (v : Value) : List Omission :=
  match MarkerSet.Fields.ofJson v with
  | .error m => [.badSet (.malformed m)]
  | .ok f =>
    MarkerSet.omitted s f ++
      if f.name ∈ (setsOf s front).map MarkerSet.name then [.nameTaken f.name] else []

/-- What is left out of a list of sets, behind the values in `front`. -/
def omitted (s : Shorthand) (front : List Value) : List Value → List Omission
  | [] => []
  | v :: rest => omittedAt s front v ++ omitted s (front ++ [v]) rest

/-! ## One value more -/

/-- No name is lost. -/
theorem mem_names_firstOfEachName (sets : List MarkerSet) (name : String) :
    name ∈ (firstOfEachName sets).map MarkerSet.name ↔ name ∈ sets.map MarkerSet.name := by
  induction sets with
  | nil => exact Iff.rfl
  | cons set rest ih =>
    rw [firstOfEachName, List.map_cons, List.map_cons, List.mem_cons, List.mem_cons, ← ih]
    by_cases heq : name = set.name
    · exact iff_of_true (Or.inl heq) (Or.inl heq)
    · -- Sets with another name pass the filter.
      refine or_congr_right ⟨fun h => ?_, fun h => ?_⟩
      · exact List.map_subset MarkerSet.name (List.filter_subset_self _) h
      · rcases List.mem_map.mp h with ⟨other, hother, rfl⟩
        exact List.mem_map_of_mem (List.mem_filter.mpr ⟨hother, bne_iff_ne.mpr heq⟩)

variable (s : Shorthand) (front : List Value) (v : Value)

/-- A value that is no set changes nothing. -/
theorem setsOf_concat_of_none (h : MarkerSet.read? s v = none) :
    setsOf s (front ++ [v]) = setsOf s front := by
  rw [setsOf, setsOf, List.filterMap_append, List.filterMap_cons_none h, List.filterMap_nil,
    List.append_nil]

/-- Nor does a set with a name that is taken. -/
theorem setsOf_concat_of_taken (set : MarkerSet) (h : MarkerSet.read? s v = some set)
    (htaken : set.name ∈ (setsOf s front).map MarkerSet.name) :
    setsOf s (front ++ [v]) = setsOf s front := by
  rw [setsOf, mem_names_firstOfEachName] at htaken
  rw [setsOf, setsOf, List.filterMap_append, List.filterMap_cons_some h, List.filterMap_nil,
    firstOfEachName_append_cons _ _ set htaken, List.append_nil]

/-- Any other set comes last. -/
theorem setsOf_concat_of_new (set : MarkerSet) (h : MarkerSet.read? s v = some set)
    (hnew : set.name ∉ (setsOf s front).map MarkerSet.name) :
    setsOf s (front ++ [v]) = setsOf s front ++ [set] := by
  rw [setsOf, mem_names_firstOfEachName] at hnew
  rw [setsOf, setsOf, List.filterMap_append, List.filterMap_cons_some h, List.filterMap_nil,
    firstOfEachName_concat _ set hnew]

theorem countP_omitted (f : MarkerSet.Fields) :
    (MarkerSet.omitted s f).countP Omission.ofSet = 0 := by
  rw [List.countP_eq_zero]
  intro o ho
  rcases List.mem_map.mp ho with ⟨fault, _, rfl⟩
  exact Bool.false_ne_true

/-- Each value of a list of sets is kept or left out. -/
theorem length_setsOf_concat :
    (setsOf s (front ++ [v])).length + (omittedAt s front v).countP Omission.ofSet =
      (setsOf s front).length + 1 := by
  rw [omittedAt]
  cases hfields : MarkerSet.Fields.ofJson v with
  | error m =>
    rw [setsOf_concat_of_none s front v (MarkerSet.read?_of_no_fields s v m hfields)]
    rfl
  | ok f =>
    have hread := MarkerSet.read?_of_fields s v f hfields
    simp only [List.countP_append, countP_omitted, Nat.zero_add]
    by_cases hold : f.name ∈ (setsOf s front).map MarkerSet.name
    · rw [if_pos hold, setsOf_concat_of_taken s front v _ hread hold]
      rfl
    · rw [if_neg hold, setsOf_concat_of_new s front v _ hread hold, List.length_append]
      rfl

/-- So the sets that are kept and those that are left out make up the list. -/
theorem length_setsOf_add_omitted (values : List Value) :
    (setsOf s (front ++ values)).length + (omitted s front values).countP Omission.ofSet =
      (setsOf s front).length + values.length := by
  induction values generalizing front with
  | nil => rw [List.append_nil]; rfl
  | cons v rest ih =>
    have hplace := length_setsOf_concat s front v
    have hrest := ih (front ++ [v])
    rw [List.append_assoc, List.singleton_append] at hrest
    rw [omitted, List.countP_append, List.length_cons]
    omega

/-! ## The log -/

/-- The scan logs what is left out, if it has kept what it should from the values in
    front. -/
theorem log_readSets (kept : List MarkerSet) (values : List Value)
    (h : kept.reverse = setsOf s front) :
    (readSets s kept values).log = (omitted s front values).map Omission.entry := by
  induction values generalizing kept front with
  | nil => rfl
  | cons v rest ih =>
    rw [readSets, omitted, List.map_append, Logged.log_bind, omittedAt]
    cases hfields : MarkerSet.Fields.ofJson v with
    | error m =>
      have hsame := setsOf_concat_of_none s front v (MarkerSet.read?_of_no_fields s v m hfields)
      rw [MarkerSet.ofJson_of_no_fields s v m hfields, ← ih (front ++ [v]) kept (h.trans hsame.symm)]
      rfl
    | ok f =>
      have hread := MarkerSet.read?_of_fields s v f hfields
      have hnames : f.name ∈ kept.map MarkerSet.name ↔
          f.name ∈ (setsOf s front).map MarkerSet.name := by
        rw [← h, mem_names_reverse]
      rw [MarkerSet.log_ofJson s v f hfields, MarkerSet.value_ofJson_of_fields s v f hfields]
      simp only [List.map_append, List.append_assoc, MarkerSet.name_ofFields, hnames]
      congr 1
      by_cases hold : f.name ∈ (setsOf s front).map MarkerSet.name
      · have hsame := setsOf_concat_of_taken s front v _ hread hold
        rw [if_pos hold, if_pos hold, List.map_singleton,
          ← ih (front ++ [v]) kept (h.trans hsame.symm)]
        rfl
      · have hmore := setsOf_concat_of_new s front v _ hread hold
        rw [if_neg hold, if_neg hold, List.map_nil, List.nil_append]
        exact ih (front ++ [v]) (MarkerSet.ofFields s f :: kept)
          (by rw [List.reverse_cons, h, hmore])

/-- Reading a document logs what is left out of it, and in the end how many sets there
    are. -/
theorem log_of_ofDocument (doc : Value) (read : Logged Catalog) (h : ofDocument s doc = .ok read) :
    ∃ active values, IsDocument doc active values ∧ read.value = ⟨active, setsOf s values⟩ ∧
      read.log = (omitted s [] values).map Omission.entry ++
        [⟨.debug, s!"Loaded {read.value.sets.length} marker sets (active: '{active}')"⟩] := by
  rw [ofDocument] at h
  cases hparts : documentParts doc with
  | error fault =>
    rw [hparts] at h
    exact absurd h (by simp only [Except.map, reduceCtorEq, not_false_eq_true])
  | ok parts =>
    rw [hparts] at h
    have hlog := log_readSets s [] [] parts.2 rfl
    have hvalue : (readSets s [] parts.2).value = setsOf s parts.2 := value_readSets s [] _ rfl
    refine ⟨parts.1, parts.2, (documentParts_eq_ok_iff doc _ _).mp hparts, ?_, ?_⟩
    · rw [← Except.ok.inj h, ← hvalue]
      rfl
    · rw [← hlog, ← Except.ok.inj h]
      rfl

/-! ## Sets that are kept -/

/-- What is kept is the first of its name. -/
theorem exists_append_of_mem_firstOfEachName (sets : List MarkerSet) (set : MarkerSet)
    (h : set ∈ firstOfEachName sets) :
    ∃ front back, sets = front ++ set :: back ∧ set.name ∉ front.map MarkerSet.name := by
  induction sets with
  | nil => exact absurd h List.not_mem_nil
  | cons first rest ih =>
    rcases List.mem_cons.mp h with rfl | hrest
    · exact ⟨[], rest, rfl, List.not_mem_nil⟩
    · rw [List.mem_filter, bne_iff_ne] at hrest
      rcases ih hrest.1 with ⟨front, back, rfl, hnew⟩
      refine ⟨first :: front, back, rfl, fun hname => ?_⟩
      rcases List.mem_cons.mp hname with heq | hold
      · exact hrest.2 heq
      · exact hnew hold

/-- A set that is kept comes from a place in the list where its name is new. -/
theorem exists_place_of_mem_setsOf (values : List Value) (set : MarkerSet)
    (h : set ∈ setsOf s values) :
    ∃ front v back f, values = front ++ v :: back ∧ MarkerSet.IsRecord v f ∧
      set = MarkerSet.ofFields s f ∧ f.name ∉ (setsOf s front).map MarkerSet.name := by
  rcases exists_append_of_mem_firstOfEachName _ set h with ⟨sets, more, hsets, hnew⟩
  rcases List.filterMap_eq_append_iff.mp hsets with ⟨front, back, rfl, rfl, hback⟩
  rcases List.filterMap_eq_cons_iff.mp hback with ⟨bad, v, rest, rfl, hbad, hread, _⟩
  rcases (MarkerSet.read?_eq_some_iff s v set).mp hread with ⟨f, hrecord, rfl⟩
  refine ⟨front ++ bad, v, rest, f, by rw [List.append_assoc], hrecord, rfl, ?_⟩
  -- Between the last set that was read and this one stand values that are no sets.
  rw [setsOf, mem_names_firstOfEachName, List.filterMap_append,
    List.filterMap_eq_nil_iff.mpr hbad, List.append_nil]
  exact hnew

/-- At such a place only markers are left out. -/
theorem omittedAt_of_new (f : MarkerSet.Fields) (hrecord : MarkerSet.IsRecord v f)
    (hnew : f.name ∉ (setsOf s front).map MarkerSet.name) :
    omittedAt s front v = MarkerSet.omitted s f := by
  rw [omittedAt, (MarkerSet.Fields.ofJson_eq_ok_iff v f).mpr hrecord]
  simp only [if_neg hnew, List.append_nil]

/-- The markers of a set that are kept and those that are left out make up its list. -/
theorem length_markers_add_omitted (f : MarkerSet.Fields) :
    (MarkerSet.ofFields s f).markers.length + (MarkerSet.omitted s f).length =
      f.markers.length := by
  rw [MarkerSet.omitted, List.length_map]
  exact Marker.length_filterMap_add s f.markers

end Catalog

end SourceMarkers
