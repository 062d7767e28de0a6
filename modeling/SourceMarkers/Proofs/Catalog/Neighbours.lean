import Mathlib.Logic.Relation
import SourceMarkers.Proofs.Catalog.Operations
import SourceMarkers.Proofs.Marker.Records

/-!
# Bad items and their neighbours

A document holds sets, and sets hold markers, and any of them may be bad. What is
read of the document is what would be read if the bad ones were not there: the sets
that can be read, of each name only the first, each with the markers that can be
read, all in the order of the document. A set that cannot be read does not take its
name away from a later one.

The scan that reads the sets carries along what it has kept. `firstOfEachName` says
the same without it, as a function of the sets that can be read, and it takes two
lists one after the other apart (`firstOfEachName_append`). So what a bad item does
depends on what stands before it only, and it does nothing.

## Main definitions

* `Catalog.firstOfEachName`: Of sets with the same name only the first.
* `Catalog.setsOf`: The sets of a list of values.
* `Catalog.GainsBadItem`: One more bad item in a list of values.

## Theorems

* `Catalog.firstOfEachName_append`: Two lists, one after the other.
* `Catalog.value_readSets`: What the scan keeps.
* `Catalog.ofDocument_eq_ok`, `Catalog.apply_load`: What is read of a document.
* `Catalog.loads_iff`, `Catalog.apply_load_cases`: Which documents are read, and
  which are refused.
* `Catalog.setsOf_of_gainsBadItem`: A bad item more.
* `Catalog.ofDocument_neighbours`: Bad items leave all others alone.
-/

namespace SourceMarkers

open Json (Value)

namespace Catalog

/-! ## The first of each name -/

/-- Of sets with the same name only the first. -/
def firstOfEachName : List MarkerSet → List MarkerSet
  | [] => []
  | set :: rest => set :: (firstOfEachName rest).filter fun other => other.name != set.name

/-- Of the second list only those sets are kept whose names the first one does not
    have. -/
theorem firstOfEachName_append (front back : List MarkerSet) :
    firstOfEachName (front ++ back) =
      firstOfEachName front ++
        (firstOfEachName back).filter fun set => set.name ∉ front.map MarkerSet.name := by
  induction front with
  | nil =>
    simp only [List.nil_append, firstOfEachName, List.map_nil, List.not_mem_nil, not_false_eq_true,
      decide_true, List.filter_true]
  | cons set rest ih =>
    rw [List.cons_append, firstOfEachName, firstOfEachName, ih, List.filter_append,
      List.filter_filter, List.cons_append]
    congr 2
    refine List.filter_congr fun other _ => ?_
    rw [List.map_cons, Bool.eq_iff_iff, Bool.and_eq_true, bne_iff_ne, decide_eq_true_iff,
      decide_eq_true_iff, List.mem_cons, not_or]

/-- A set whose name was there before is not kept. -/
theorem firstOfEachName_append_cons (front back : List MarkerSet) (set : MarkerSet)
    (h : set.name ∈ front.map MarkerSet.name) :
    firstOfEachName (front ++ set :: back) = firstOfEachName (front ++ back) := by
  rw [firstOfEachName_append, firstOfEachName_append, firstOfEachName, List.filter_cons,
    if_neg (by rw [decide_eq_true_iff, not_not]; exact h), List.filter_filter]
  congr 1
  refine List.filter_congr fun other _ => ?_
  rw [Bool.eq_iff_iff, Bool.and_eq_true, bne_iff_ne, decide_eq_true_iff]
  -- Its name is one of those in front, so leaving it out is nothing new.
  exact ⟨And.left, fun hother => ⟨hother, fun heq => hother (heq ▸ h)⟩⟩

/-- A last set whose name is new is kept. -/
theorem firstOfEachName_concat (front : List MarkerSet) (set : MarkerSet)
    (h : set.name ∉ front.map MarkerSet.name) :
    firstOfEachName (front ++ [set]) = firstOfEachName front ++ [set] := by
  rw [firstOfEachName_append, firstOfEachName, firstOfEachName, List.filter_nil, List.filter_cons,
    if_pos (decide_eq_true h), List.filter_nil]

/-! ## Documents -/

/-- The sets of a list of values: those that can be read, of each name only the
    first. -/
def setsOf (s : Shorthand) (values : List Value) : List MarkerSet :=
  firstOfEachName (values.filterMap (MarkerSet.read? s))

/-- The scan keeps the first of each name, counting in what it has kept so far. -/
theorem value_readSets (s : Shorthand) (kept : List MarkerSet) (values : List Value)
    (h : firstOfEachName kept.reverse = kept.reverse) :
    (readSets s kept values).value =
      firstOfEachName (kept.reverse ++ values.filterMap (MarkerSet.read? s)) := by
  induction values generalizing kept with
  | nil =>
    rw [List.filterMap_nil, List.append_nil, h]
    rfl
  | cons v rest ih =>
    rw [readSets, Logged.value_bind]
    cases hread : (MarkerSet.ofJson s v).value with
    | error e =>
      -- What cannot be read leaves nothing behind, and takes no name.
      have hnone : MarkerSet.read? s v = none := by rw [MarkerSet.read?, hread]; rfl
      rw [List.filterMap_cons_none hnone]
      exact ih kept h
    | ok set =>
      have hsome : MarkerSet.read? s v = some set := by rw [MarkerSet.read?, hread]; rfl
      rw [List.filterMap_cons_some hsome]
      by_cases hold : set.name ∈ kept.map MarkerSet.name
      · have hname := (mem_names_reverse kept set.name).mpr hold
        rw [firstOfEachName_append_cons _ _ set hname, ← ih kept h]
        simp only [if_pos hold, Logged.value_bind]
      · have hname := (not_congr (mem_names_reverse kept set.name)).mpr hold
        have hkept : firstOfEachName (set :: kept).reverse = (set :: kept).reverse := by
          rw [List.reverse_cons, firstOfEachName_concat _ set hname, h]
        have hread := ih (set :: kept) hkept
        rw [List.reverse_cons, List.append_assoc, List.singleton_append] at hread
        rw [← hread]
        simp only [if_neg hold]

/-- A document is read when it has an active name and a list of sets; what is read
    has that name, and the sets of that list. -/
theorem ofDocument_eq_ok (s : Shorthand) (doc : Value) (active : String) (values : List Value)
    (h : IsDocument doc active values) :
    ∃ read, ofDocument s doc = .ok read ∧ read.value = ⟨active, setsOf s values⟩ := by
  rw [ofDocument, (documentParts_eq_ok_iff doc active values).mpr h]
  refine ⟨_, rfl, ?_⟩
  have hsets : (readSets s [] values).value = setsOf s values := value_readSets s [] values rfl
  rw [← hsets]
  rfl

/-- No other document is read. -/
theorem loads_iff (s : Shorthand) (doc : Value) :
    (Operation.load s doc).Loads ↔ ∃ active values, IsDocument doc active values := by
  constructor
  · rintro ⟨_, _, read, hload, hread⟩
    rcases Operation.load.inj hload with ⟨rfl, rfl⟩
    rcases value_of_ofDocument s doc read hread with ⟨active, values, hparts, _⟩
    exact ⟨active, values, (documentParts_eq_ok_iff doc active values).mp hparts⟩
  · rintro ⟨active, values, h⟩
    rcases ofDocument_eq_ok s doc active values h with ⟨read, hread, _⟩
    exact ⟨s, doc, read, rfl, hread⟩

/-- A document that is read takes the place of any catalog. -/
theorem apply_load (c : Catalog) (s : Shorthand) (doc : Value) (active : String)
    (values : List Value) (h : IsDocument doc active values) :
    c.apply (.load s doc) = ⟨active, setsOf s values⟩ := by
  rcases ofDocument_eq_ok s doc active values h with ⟨read, hread, hvalue⟩
  rw [apply, hread]
  exact hvalue

/-- A document is read, and takes the place of any catalog, or it is refused, and
    every catalog stays as it was. -/
theorem apply_load_cases (s : Shorthand) (doc : Value) :
    (∃ active values read, IsDocument doc active values ∧ ofDocument s doc = .ok read ∧
      ∀ c : Catalog, c.apply (.load s doc) = ⟨active, setsOf s values⟩) ∨
    ∃ fault, ofDocument s doc = .error fault ∧ ∀ c : Catalog, c.apply (.load s doc) = c := by
  cases hread : ofDocument s doc with
  | error fault =>
    refine Or.inr ⟨fault, rfl, fun c => ?_⟩
    rw [apply, hread]
  | ok read =>
    rcases (loads_iff s doc).mp ⟨s, doc, read, rfl, hread⟩ with ⟨active, values, h⟩
    exact Or.inl ⟨active, values, read, h, rfl, fun c => apply_load c s doc active values h⟩

/-! ## Bad items -/

/-- The second list of values is the first one with one more bad item: a value that
    is no set, a set whose name one before it has, or in one of the sets a value that
    is no marker. -/
inductive GainsBadItem (s : Shorthand) : List Value → List Value → Prop where
  | noSet (front back : List Value) (v : Value) (hbad : MarkerSet.read? s v = none) :
    GainsBadItem s (front ++ back) (front ++ v :: back)
  | nameTaken (front back : List Value) (v : Value) (set first : MarkerSet)
    (hset : MarkerSet.read? s v = some set)
    (hfirst : first ∈ front.filterMap (MarkerSet.read? s)) (hname : first.name = set.name) :
    GainsBadItem s (front ++ back) (front ++ v :: back)
  | noMarker (front back : List Value) (v w : Value) (hgains : MarkerSet.GainsBadMarker s v w) :
    GainsBadItem s (front ++ v :: back) (front ++ w :: back)

/-- With a bad item more, the sets are the same. -/
theorem setsOf_of_gainsBadItem (s : Shorthand) (values values' : List Value)
    (h : GainsBadItem s values values') : setsOf s values' = setsOf s values := by
  unfold setsOf
  cases h with
  | noSet front back v hbad =>
    rw [List.filterMap_append, List.filterMap_append, List.filterMap_cons_none hbad]
  | nameTaken front back v set first hset hfirst hname =>
    rw [List.filterMap_append, List.filterMap_append, List.filterMap_cons_some hset]
    refine firstOfEachName_append_cons _ _ set ?_
    rw [← hname]
    exact List.mem_map_of_mem hfirst
  | noMarker front back v w hgains =>
    have hsame := MarkerSet.read?_of_gainsBadMarker s v w hgains
    rw [List.filterMap_append, List.filterMap_append, List.filterMap_cons, List.filterMap_cons,
      hsame]

/-- So they are with any number of bad items more. -/
theorem setsOf_of_reflTransGen (s : Shorthand) (values values' : List Value)
    (h : Relation.ReflTransGen (GainsBadItem s) values values') :
    setsOf s values' = setsOf s values := by
  induction h with
  | refl => rfl
  | tail _ hlast ih => rw [setsOf_of_gainsBadItem s _ _ hlast, ih]

/-- Nothing is kept that was not there. -/
theorem mem_of_mem_firstOfEachName (sets : List MarkerSet) (set : MarkerSet)
    (h : set ∈ firstOfEachName sets) : set ∈ sets := by
  induction sets with
  | nil => exact h
  | cons first rest ih =>
    rcases List.mem_cons.mp h with rfl | hrest
    · exact List.mem_cons_self
    · exact List.mem_cons_of_mem _ (ih (List.mem_of_mem_filter hrest))

/-- What is read of a document are the sets that can be read, of each name the
    first, in the order of the document, and in each of them the markers that can be
    read, in the order of its list. Any number of bad items more, wherever they are
    put in, makes no difference. -/
theorem ofDocument_neighbours (s : Shorthand) (doc : Value) (active : String) (values : List Value)
    (h : IsDocument doc active values) :
    ∃ read, ofDocument s doc = .ok read ∧
      read.value = ⟨active, firstOfEachName (values.filterMap (MarkerSet.read? s))⟩ ∧
      (∀ set ∈ read.value.sets, ∃ v ∈ values, MarkerSet.read? s v = some set ∧
        ∃ f, MarkerSet.IsRecord v f ∧ set.name = f.name ∧
          set.markers = f.markers.filterMap (Marker.read? s)) ∧
      ∀ doc' values', IsDocument doc' active values' →
        Relation.ReflTransGen (GainsBadItem s) values values' →
        ∃ read', ofDocument s doc' = .ok read' ∧ read'.value = read.value := by
  rcases ofDocument_eq_ok s doc active values h with ⟨read, hread, hvalue⟩
  refine ⟨read, hread, hvalue, fun set hset => ?_, fun doc' values' h' hgains => ?_⟩
  · rw [hvalue] at hset
    rcases List.mem_filterMap.mp (mem_of_mem_firstOfEachName _ set hset) with ⟨v, hv, hset⟩
    rcases (MarkerSet.read?_eq_some_iff s v set).mp hset with ⟨f, hrecord, hparts⟩
    refine ⟨v, hv, hset, f, hrecord, ?_⟩
    rw [hparts]
    exact ⟨rfl, rfl⟩
  · rcases ofDocument_eq_ok s doc' active values' h' with ⟨read', hread', hvalue'⟩
    refine ⟨read', hread', ?_⟩
    rw [hvalue', hvalue, setsOf_of_reflTransGen s values values' hgains]

/-- A set without markers stands in front of a good one with the same name, `null`
    is among the markers of the good one, and a set with its name comes last: the
    good set is read, and nothing else. -/
theorem ofDocument_neighbours_lint :
    let lint (markers : List Value) : Value :=
      .object [("markers", .array markers), ("name", .string "lint")]
    let bad : Value := .object [("name", .string "lint")]
    let again : Value := .array [.string "lint", .string "/p", .array []]
    let document (values : List Value) : Value :=
      .object [("active_set", .string "lint"), ("sets", .array values)]
    IsDocument (document [lint []]) "lint" [lint []] ∧
      Relation.ReflTransGen (GainsBadItem ⟨none⟩) [lint []] [bad, lint [.null], again] ∧
      ∃ read, ofDocument ⟨none⟩ (document [bad, lint [.null], again]) = .ok read ∧
        read.value = ⟨"lint", [⟨"lint", none, []⟩]⟩ := by
  intro lint bad again document
  have hgains :
      Relation.ReflTransGen (GainsBadItem ⟨none⟩) [lint []] [bad, lint [.null], again] := by
    have hbad : GainsBadItem ⟨none⟩ [lint []] [bad, lint []] := .noSet [] [lint []] bad rfl
    have hagain : GainsBadItem ⟨none⟩ [bad, lint []] [bad, lint [], again] :=
      .nameTaken [bad, lint []] [] again ⟨"lint", some (.ofString "/p"), []⟩ ⟨"lint", none, []⟩
        (by decide) (by decide) rfl
    have hnull : GainsBadItem ⟨none⟩ [bad, lint [], again] [bad, lint [.null], again] := by
      refine .noMarker [bad] [again] _ _ (.object _ _ [] [] .null rfl rfl rfl fun name hname => ?_)
      simp only [List.lookup_cons, beq_eq_false_iff_ne.mpr hname]
    exact .tail (.tail (.single hbad) hagain) hnull
  rcases ofDocument_neighbours ⟨none⟩ (document [lint []]) "lint" [lint []] ⟨rfl, rfl⟩ with
    ⟨read, _, hvalue, _, hsame⟩
  rcases hsame (document [bad, lint [.null], again]) _ ⟨rfl, rfl⟩ hgains with
    ⟨read', hread', hvalue'⟩
  refine ⟨⟨rfl, rfl⟩, hgains, read', hread', ?_⟩
  rw [hvalue', hvalue]
  decide

end Catalog

end SourceMarkers
