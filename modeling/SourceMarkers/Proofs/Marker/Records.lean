import SourceMarkers.Proofs.Json.Reading
import SourceMarkers.Proofs.Marker.RoundTrip

/-!
# Which values are marker sets

A marker set is read in two steps. First the fields of its record are looked for,
and any that is missing or of the wrong type spoils the set. Then the items of the
list of markers are read one by one, and here nothing can go wrong: the items that
are markers make up the set, in their order, and the others are passed over. So
whether a value is a set at all does not depend on what its list of markers holds.

That is what makes a bad marker harmless. `GainsBadMarker` puts one into a set, at any
place of its list, and the set that is read stays the same.

## Main definitions

* `Marker.read?`, `MarkerSet.read?`: What a value is read as, without the log.
* `MarkerSet.IsRecord`: A value has the fields of a set.
* `MarkerSet.ofFields`: The set with these fields.
* `MarkerSet.GainsBadMarker`: A value with one more item that is no marker.

## Theorems

* `MarkerSet.Fields.ofJson_eq_ok_iff`: Which values have the fields.
* `MarkerSet.read?_eq_some_iff`: Which values are sets, and what is in them.
* `MarkerSet.read?_of_gainsBadMarker`: A bad marker more.
-/

namespace SourceMarkers

open Json (Value)

namespace Marker

/-- The marker that a value is read as, if it is one. -/
def read? (s : Shorthand) (v : Value) : Option Marker := (ofJson s v).toOption

theorem read?_of_ok {s : Shorthand} {v : Value} {m : Marker} (h : ofJson s v = .ok m) :
    read? s v = some m := by
  rw [read?, h]
  rfl

theorem read?_of_error {s : Shorthand} {v : Value} {fault : ItemFault}
    (h : ofJson s v = .error fault) : read? s v = none := by
  rw [read?, h]
  rfl

end Marker

namespace MarkerSet

/-- The marker set that a value is read as, if it is one. -/
def read? (s : Shorthand) (v : Value) : Option MarkerSet := (ofJson s v).value.toOption

/-! ## Fields -/

/-- A base path may be missing or `null`, or it is a text. -/
inductive IsBase : Option Value → Option String → Prop where
  | missing : IsBase none none
  | null : IsBase (some .null) none
  | text (text : String) : IsBase (some (.string text)) (some text)

/-- The value has the fields of a marker set, as members of an object or as the
    three items of an array. -/
inductive IsRecord : Value → Fields → Prop where
  | object (members : List (String × Value)) (f : Fields)
    (hname : members.lookup "name" = some (.string f.name))
    (hbase : IsBase (members.lookup "base_path") f.base?)
    (hmarkers : members.lookup "markers" = some (.array f.markers)) :
    IsRecord (.object members) f
  | array (name : String) (base : Value) (base? : Option String) (markers : List Value)
    (hbase : IsBase (some base) base?) :
    IsRecord (.array [.string name, base, .array markers]) ⟨name, base?, markers⟩

theorem text?_eq_ok_iff (v : Value) (text? : Option String) :
    v.text? = .ok text? ↔ IsBase (some v) text? := by
  constructor
  · intro h
    cases v with
    | null =>
      rw [← Except.ok.inj h]
      exact .null
    | string text =>
      rw [← Except.ok.inj h]
      exact .text text
    | _ => exact absurd h (by simp only [Value.text?, Value.text, Except.map, reduceCtorEq,
        not_false_eq_true])
  · rintro (_ | _)
    · rfl
    · rfl

/-- The base path of an object is the text that its member holds, if there is
    one. -/
theorem field?_base_iff (members : List (String × Value)) (text? : Option String) :
    (∃ base?, Json.field? members "base_path" Value.text? = .ok base? ∧ base?.join = text?) ↔
      IsBase (members.lookup "base_path") text? := by
  cases hlookup : members.lookup "base_path" with
  | none =>
    rw [Json.field?, hlookup]
    constructor
    · rintro ⟨base?, hbase, rfl⟩
      rw [← Except.ok.inj hbase]
      exact .missing
    · rintro ⟨⟩
      exact ⟨none, rfl, rfl⟩
  | some v =>
    rw [← text?_eq_ok_iff, Json.field?, hlookup]
    simp only []
    cases v.text? with
    | error m => simp only [Except.map, reduceCtorEq, false_and, exists_false]
    | ok found => simp only [Except.map, Except.ok.injEq, exists_eq_left', Option.join_some]

theorem Fields.ofMembers_eq_ok_iff (members : List (String × Value)) (f : Fields) :
    ofMembers members = .ok f ↔ IsRecord (.object members) f := by
  constructor
  · intro h
    rcases Json.bind_eq_ok h with ⟨base?, hbase, h⟩
    rcases Json.bind_eq_ok h with ⟨markers?, hmarkers?, h⟩
    rcases Json.bind_eq_ok h with ⟨name?, hname?, h⟩
    rcases Json.bind_eq_ok h with ⟨name, hname, h⟩
    rcases Json.bind_eq_ok h with ⟨markers, hmarkers, h⟩
    rw [← Except.ok.inj h]
    rcases Json.lookup_of_required members _ _ _ name hname? hname with ⟨v, hv, htext⟩
    rcases Json.lookup_of_required members _ _ _ markers hmarkers? hmarkers with ⟨w, hw, hlist⟩
    rw [(Value.text_eq_ok_iff v name).mp htext] at hv
    rw [(Value.list_eq_ok_iff w markers).mp hlist] at hw
    exact .object members _ hv ((field?_base_iff members _).mp ⟨base?, hbase, rfl⟩) hw
  · rintro ⟨_, _, hname, hbase, hmarkers⟩
    rcases (field?_base_iff members f.base?).mpr hbase with ⟨base?, hfield, hjoin⟩
    have hname := (Json.field?_eq_some_iff members "name" Value.text f.name).mpr ⟨_, hname, rfl⟩
    have hmarkers := (Json.field?_eq_some_iff members "markers" Value.list f.markers).mpr
      ⟨_, hmarkers, rfl⟩
    have hread : ofMembers members = .ok ⟨f.name, base?.join, f.markers⟩ := by
      rw [ofMembers, hfield, hname, hmarkers]
      rfl
    rw [hread, hjoin]

theorem Fields.ofItems_eq_ok_iff (items : List Value) (f : Fields) :
    ofItems items = .ok f ↔ IsRecord (.array items) f := by
  constructor
  · intro h
    rcases Json.bind_eq_ok h with ⟨⟨name, afterName⟩, hname, h⟩
    rcases (Json.nextItem_eq_ok_iff ..).mp hname with ⟨v, rfl, hv⟩
    cases afterName with
    | nil =>
      -- There is no list of markers behind a base path that is left out.
      exact absurd h (by simp only [pure, Except.pure, bind, Except.bind, Json.nextItem,
        reduceCtorEq, not_false_eq_true])
    | cons base rest =>
      rcases Json.bind_eq_ok h with ⟨⟨base?, afterBase⟩, hbase, h⟩
      rcases Json.bind_eq_ok h with ⟨⟨markers, afterMarkers⟩, hmarkers, h⟩
      rcases Json.bind_eq_ok h with ⟨_, hend, h⟩
      rcases (Json.nextItem_eq_ok_iff ..).mp hbase with ⟨u, hu, htext⟩
      rcases (Json.nextItem_eq_ok_iff ..).mp hmarkers with ⟨w, hw, hlist⟩
      rw [← Except.ok.inj h, hu, hw, (Json.noMore_eq_ok_iff ..).mp hend,
        (Value.text_eq_ok_iff v name).mp hv, (Value.list_eq_ok_iff w markers).mp hlist]
      exact .array name u base? markers ((text?_eq_ok_iff u base?).mp htext)
  · rintro ⟨⟩
    next name base base? markers hbase =>
    have hbase := (Json.nextItem_eq_ok_iff 1 wanted Value.text? [base, .array markers]
      [.array markers] base?).mpr ⟨base, rfl, (text?_eq_ok_iff base base?).mpr hbase⟩
    have hname := (Json.nextItem_eq_ok_iff 0 wanted Value.text
      [.string name, base, .array markers] [base, .array markers] name).mpr ⟨_, rfl, rfl⟩
    rw [ofItems, hname]
    show (Json.nextItem 1 wanted Value.text? [base, .array markers] >>= _) = _
    rw [hbase]
    rfl

/-- The values that have the fields of a set. -/
theorem Fields.ofJson_eq_ok_iff (v : Value) (f : Fields) : ofJson v = .ok f ↔ IsRecord v f := by
  cases v with
  | object members => exact ofMembers_eq_ok_iff members f
  | array items => exact ofItems_eq_ok_iff items f
  | _ =>
    constructor
    · exact fun h => absurd h (by simp only [ofJson, reduceCtorEq, not_false_eq_true])
    · rintro ⟨⟩

/-! ## Sets -/

/-- Of a list of markers, those are read that can be, in their order. -/
theorem value_readMarkers (s : Shorthand) (name : String) (values : List Value) :
    (readMarkers s name values).value = values.filterMap (Marker.read? s) := by
  induction values with
  | nil => rfl
  | cons v rest ih =>
    rw [readMarkers]
    cases hread : Marker.ofJson s v with
    | ok m =>
      rw [List.filterMap_cons_some (Marker.read?_of_ok hread), ← ih]
      rfl
    | error e =>
      rw [List.filterMap_cons_none (Marker.read?_of_error hread), ← ih]
      rfl

/-- The set with the given fields. -/
def ofFields (s : Shorthand) (f : Fields) : MarkerSet :=
  ⟨f.name, baseOf? s f.base?, f.markers.filterMap (Marker.read? s)⟩

theorem name_ofFields (s : Shorthand) (f : Fields) : (ofFields s f).name = f.name := rfl

theorem value_ofJson_of_fields (s : Shorthand) (v : Value) (f : Fields)
    (h : Fields.ofJson v = .ok f) : (ofJson s v).value = .ok (ofFields s f) := by
  rw [ofJson, h, ofFields]
  simp only [Logged.value_bind, Logged.value_pure, value_readMarkers]

theorem read?_of_fields (s : Shorthand) (v : Value) (f : Fields) (h : Fields.ofJson v = .ok f) :
    read? s v = some (ofFields s f) := by
  rw [read?, value_ofJson_of_fields s v f h]
  rfl

theorem ofJson_of_no_fields (s : Shorthand) (v : Value) (m : Json.Mismatch)
    (h : Fields.ofJson v = .error m) : ofJson s v = pure (.error (.malformed m)) := by
  rw [ofJson, h]

theorem read?_of_no_fields (s : Shorthand) (v : Value) (m : Json.Mismatch)
    (h : Fields.ofJson v = .error m) : read? s v = none := by
  rw [read?, ofJson_of_no_fields s v m h]
  rfl

/-- A value is a marker set just when it has the fields of one, and the set has the
    markers of its list that can be read. -/
theorem read?_eq_some_iff (s : Shorthand) (v : Value) (set : MarkerSet) :
    read? s v = some set ↔ ∃ f, IsRecord v f ∧ set = ofFields s f := by
  cases hfields : Fields.ofJson v with
  | error m =>
    rw [read?_of_no_fields s v m hfields]
    constructor
    · exact fun h => absurd h.symm (Option.some_ne_none set)
    · rintro ⟨f, hrecord, _⟩
      rw [← Fields.ofJson_eq_ok_iff, hfields] at hrecord
      exact absurd hrecord (by simp only [reduceCtorEq, not_false_eq_true])
  | ok g =>
    rw [read?_of_fields s v g hfields, Option.some.injEq]
    constructor
    · rintro rfl
      exact ⟨g, (Fields.ofJson_eq_ok_iff v g).mp hfields, rfl⟩
    · rintro ⟨f, hrecord, rfl⟩
      rw [← Fields.ofJson_eq_ok_iff, hfields, Except.ok.injEq] at hrecord
      rw [hrecord]

/-- The second value is the first one with one more item in its list of markers, and
    that is no marker. -/
inductive GainsBadMarker (s : Shorthand) : Value → Value → Prop where
  | object (members members' : List (String × Value)) (front back : List Value) (m : Value)
    (hbad : Marker.read? s m = none)
    (hold : members.lookup "markers" = some (.array (front ++ back)))
    (hnew : members'.lookup "markers" = some (.array (front ++ m :: back)))
    (hsame : ∀ name, name ≠ "markers" → members'.lookup name = members.lookup name) :
    GainsBadMarker s (.object members) (.object members')
  | array (name base : Value) (front back : List Value) (m : Value)
    (hbad : Marker.read? s m = none) :
    GainsBadMarker s (.array [name, base, .array (front ++ back)])
      (.array [name, base, .array (front ++ m :: back)])

/-- Only the list of markers may differ between two objects, so they are records of
    sets that differ there only. -/
theorem IsRecord.object_of_lookup {members members' : List (String × Value)}
    {old new : List Value} {f : Fields} (h : IsRecord (.object members) f)
    (hold : members.lookup "markers" = some (.array old))
    (hnew : members'.lookup "markers" = some (.array new))
    (hsame : ∀ name, name ≠ "markers" → members'.lookup name = members.lookup name) :
    f.markers = old ∧ IsRecord (.object members') { f with markers := new } := by
  rcases h with ⟨_, _, hname, hbase, hmarkers⟩
  refine ⟨Value.array.inj (Option.some.inj (hmarkers.symm.trans hold)), .object _ _ ?_ ?_ hnew⟩
  · rw [hsame "name" (by decide)]
    exact hname
  · rw [hsame "base_path" (by decide)]
    exact hbase

theorem IsRecord.array_of_array {name base : Value} {old new : List Value} {f : Fields}
    (h : IsRecord (.array [name, base, .array old]) f) :
    f.markers = old ∧ IsRecord (.array [name, base, .array new]) { f with markers := new } := by
  cases h with
  | array text base base? markers hbase => exact ⟨rfl, .array text base base? new hbase⟩

/-- With a bad marker more, a value is read as the same set, or still as none. -/
theorem read?_of_gainsBadMarker (s : Shorthand) (v w : Value) (h : GainsBadMarker s v w) :
    read? s w = read? s v := by
  -- The lists differ, and what is read of them does not.
  have hlists : ∃ old new : List Value,
      old.filterMap (Marker.read? s) = new.filterMap (Marker.read? s) ∧
      (∀ f, IsRecord v f → f.markers = old ∧ IsRecord w { f with markers := new }) ∧
      (∀ f, IsRecord w f → f.markers = new ∧ IsRecord v { f with markers := old }) := by
    cases h with
    | object members members' front back m hbad hold hnew hsame =>
      refine ⟨front ++ back, front ++ m :: back, ?_, fun f hf => ?_, fun f hf => ?_⟩
      · rw [List.filterMap_append, List.filterMap_append, List.filterMap_cons_none hbad]
      · exact hf.object_of_lookup hold hnew hsame
      · exact hf.object_of_lookup hnew hold fun name hname => (hsame name hname).symm
    | array name base front back m hbad =>
      refine ⟨front ++ back, front ++ m :: back, ?_, fun f hf => hf.array_of_array,
        fun f hf => hf.array_of_array⟩
      rw [List.filterMap_append, List.filterMap_append, List.filterMap_cons_none hbad]
  rcases hlists with ⟨old, new, hread, hforth, hback⟩
  refine Option.ext fun set => ?_
  rw [read?_eq_some_iff, read?_eq_some_iff]
  constructor
  · rintro ⟨f, hf, rfl⟩
    rcases hback f hf with ⟨hmarkers, hrecord⟩
    exact ⟨_, hrecord, by rw [ofFields, ofFields, hmarkers, hread]⟩
  · rintro ⟨f, hf, rfl⟩
    rcases hforth f hf with ⟨hmarkers, hrecord⟩
    exact ⟨_, hrecord, by rw [ofFields, ofFields, hmarkers, hread]⟩

end MarkerSet

end SourceMarkers
