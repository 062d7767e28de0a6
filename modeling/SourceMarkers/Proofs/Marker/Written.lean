import SourceMarkers.Proofs.Json.Reading
import SourceMarkers.Proofs.Marker.RoundTrip

/-!
# Which values are markers

A marker has six fields, and it is written as an object with a member for each of
them or as an array of six items in the order of the fields. Further members of an
object do no harm, while an array has no more and no fewer items. The number of the
kind has 64 bits, and line and column have 32 bits; a number out of range is refused
and never cut down, and a double is no whole number, even if it has the value of one.

`Written` holds the six values, with numbers of any size, and `IsRecord` says which
values they are written as. This is all there is to the format, as reading goes by it
alone: the fields are found just when the value is such a record, and then the number
of the kind decides between a marker and the one fault that is not the record's own.

## Main definitions

* `Marker.Written`, `Marker.Written.InRange`: The values of the six fields.
* `Marker.IsRecord`: What they are written as.
* `Marker.Holds`: The marker that has these values.

## Theorems

* `MarkerKind.ofCode?_eq_some_iff`, `MarkerKind.ofCode?_eq_none_iff`: The numbers of
  kinds.
* `Marker.Fields.ofJson_eq_ok_iff`: The values whose fields are found.
* `Marker.ofFields_eq_ok_iff`, `Marker.ofFields_eq_error_iff`: What becomes of the
  fields.
* `Marker.ofJson_exact`: Which values are markers, and what all others are.
-/

namespace SourceMarkers

open Json (Value)

namespace MarkerKind

theorem ofCode?_eq_some_iff (n : Int) (kind : MarkerKind) :
    ofCode? n = some kind ↔ n = kind.code := by
  constructor
  · intro h
    unfold ofCode? at h
    -- The four numbers are tried one after the other.
    split at h
    · next hn => rw [← Option.some.inj h, hn]; rfl
    split at h
    · next hn => rw [← Option.some.inj h, hn]; rfl
    split at h
    · next hn => rw [← Option.some.inj h, hn]; rfl
    split at h
    · next hn => rw [← Option.some.inj h, hn]; rfl
    · exact absurd h (by simp only [reduceCtorEq, not_false_eq_true])
  · rintro rfl
    exact ofCode?_code kind

theorem code_mem_range (kind : MarkerKind) : 0 ≤ kind.code ∧ kind.code ≤ 3 := by
  cases kind <;> exact ⟨by decide, by decide⟩

/-- The numbers from zero to three are those of kinds. -/
theorem ofCode?_eq_none_iff (n : Int) : ofCode? n = none ↔ ¬ (0 ≤ n ∧ n ≤ 3) := by
  constructor
  · rintro h ⟨hlow, hhigh⟩
    unfold ofCode? at h
    split at h
    · exact absurd h (Option.some_ne_none _)
    split at h
    · exact absurd h (Option.some_ne_none _)
    split at h
    · exact absurd h (Option.some_ne_none _)
    split at h
    · exact absurd h (Option.some_ne_none _)
    · omega
  · intro h
    rw [Option.eq_none_iff_forall_ne_some]
    intro kind hkind
    rw [ofCode?_eq_some_iff] at hkind
    exact h (hkind ▸ kind.code_mem_range)

end MarkerKind

namespace Marker

/-! ## Records -/

/-- The values of the six fields, as they are written. -/
structure Written where
  kind : Int
  path : String
  line : Int
  column : Int
  message : String
  showInErrorList : Bool

/-- The kind has a number of 64 bits, and the place is given in 32 bits. -/
structure Written.InRange (w : Written) : Prop where
  kind : -0x8000000000000000 ≤ w.kind ∧ w.kind < 0x8000000000000000
  line : -0x80000000 ≤ w.line ∧ w.line < 0x80000000
  column : -0x80000000 ≤ w.column ∧ w.column < 0x80000000

/-- The values are written as members of an object, among others there may be, or as
    the items of an array. -/
inductive IsRecord : Value → Written → Prop where
  | object (members : List (String × Value)) (w : Written) (hrange : w.InRange)
    (hkind : members.lookup "type" = some (.ofInt w.kind))
    (hpath : members.lookup "path" = some (.string w.path))
    (hline : members.lookup "line" = some (.ofInt w.line))
    (hcolumn : members.lookup "column" = some (.ofInt w.column))
    (hmessage : members.lookup "message" = some (.string w.message))
    (hlisted : members.lookup "show_error_list" = some (.bool w.showInErrorList)) :
    IsRecord (.object members) w
  | array (w : Written) (hrange : w.InRange) :
    IsRecord (.array [.ofInt w.kind, .string w.path, .ofInt w.line, .ofInt w.column,
      .string w.message, .bool w.showInErrorList]) w

theorem IsRecord.inRange {v : Value} {w : Written} (h : IsRecord v w) : w.InRange := by
  cases h <;> assumption

/-- The fields as they were written. -/
def Fields.written (f : Fields) : Written :=
  ⟨f.kindCode, f.path, f.line.toInt, f.column.toInt, f.message, f.showInErrorList⟩

/-- Only the number of the kind can be out of range once the fields are there. -/
theorem Fields.inRange_written (f : Fields)
    (h : -0x8000000000000000 ≤ f.kindCode ∧ f.kindCode < 0x8000000000000000) :
    f.written.InRange :=
  ⟨h, ⟨f.line.le_toInt, f.line.toInt_lt⟩, ⟨f.column.le_toInt, f.column.toInt_lt⟩⟩

/-- There are fields for any values in range. -/
theorem Written.exists_fields (w : Written) (h : w.InRange) : ∃ f : Fields, f.written = w := by
  refine ⟨⟨w.kind, w.path, .ofInt w.line, .ofInt w.column, w.message, w.showInErrorList⟩, ?_⟩
  rw [Fields.written, Int32.toInt_ofInt_of_le h.line.1 h.line.2,
    Int32.toInt_ofInt_of_le h.column.1 h.column.2]

theorem Fields.ofMembers_eq_ok_iff (members : List (String × Value)) (f : Fields) :
    ofMembers members = .ok f ↔ IsRecord (.object members) f.written := by
  constructor
  · intro h
    -- The members are looked at in order of name, and only then must all be there.
    rcases Json.bind_eq_ok h with ⟨column?, hcolumn?, h⟩
    rcases Json.bind_eq_ok h with ⟨line?, hline?, h⟩
    rcases Json.bind_eq_ok h with ⟨message?, hmessage?, h⟩
    rcases Json.bind_eq_ok h with ⟨path?, hpath?, h⟩
    rcases Json.bind_eq_ok h with ⟨listed?, hlisted?, h⟩
    rcases Json.bind_eq_ok h with ⟨kind?, hkind?, h⟩
    rcases Json.bind_eq_ok h with ⟨kind, hkind, h⟩
    rcases Json.bind_eq_ok h with ⟨path, hpath, h⟩
    rcases Json.bind_eq_ok h with ⟨line, hline, h⟩
    rcases Json.bind_eq_ok h with ⟨column, hcolumn, h⟩
    rcases Json.bind_eq_ok h with ⟨message, hmessage, h⟩
    rcases Json.bind_eq_ok h with ⟨listed, hlisted, h⟩
    rw [← Except.ok.inj h]
    rcases Json.lookup_of_required _ _ _ _ _ hkind? hkind with ⟨_, hkind, hv⟩
    rcases (Value.int64_eq_ok_iff _ kind).mp hv with ⟨rfl, hrange⟩
    rcases Json.lookup_of_required _ _ _ _ _ hpath? hpath with ⟨_, hpath, hv⟩
    rw [(Value.text_eq_ok_iff _ path).mp hv] at hpath
    rcases Json.lookup_of_required _ _ _ _ _ hline? hline with ⟨_, hline, hv⟩
    rw [(Value.int32_eq_ok_iff _ line).mp hv] at hline
    rcases Json.lookup_of_required _ _ _ _ _ hcolumn? hcolumn with ⟨_, hcolumn, hv⟩
    rw [(Value.int32_eq_ok_iff _ column).mp hv] at hcolumn
    rcases Json.lookup_of_required _ _ _ _ _ hmessage? hmessage with ⟨_, hmessage, hv⟩
    rw [(Value.text_eq_ok_iff _ message).mp hv] at hmessage
    rcases Json.lookup_of_required _ _ _ _ _ hlisted? hlisted with ⟨_, hlisted, hv⟩
    rw [(Value.flag_eq_ok_iff _ listed).mp hv] at hlisted
    exact .object members _ (inRange_written _ hrange) hkind hpath hline hcolumn hmessage hlisted
  · rintro ⟨_, _, hrange, hkind, hpath, hline, hcolumn, hmessage, hlisted⟩
    rw [ofMembers,
      (Json.field?_eq_some_iff members "column" Value.int32 f.column).mpr
        ⟨_, hcolumn, Value.int32_ofInt f.column⟩,
      (Json.field?_eq_some_iff members "line" Value.int32 f.line).mpr
        ⟨_, hline, Value.int32_ofInt f.line⟩,
      (Json.field?_eq_some_iff members "message" Value.text f.message).mpr ⟨_, hmessage, rfl⟩,
      (Json.field?_eq_some_iff members "path" Value.text f.path).mpr ⟨_, hpath, rfl⟩,
      (Json.field?_eq_some_iff members "show_error_list" Value.flag f.showInErrorList).mpr
        ⟨_, hlisted, rfl⟩,
      (Json.field?_eq_some_iff members "type" Value.int64 f.kindCode).mpr
        ⟨_, hkind, (Value.int64_eq_ok_iff _ f.kindCode).mpr ⟨rfl, hrange.kind⟩⟩]
    rfl

theorem Fields.ofItems_eq_ok_iff (items : List Value) (f : Fields) :
    ofItems items = .ok f ↔ IsRecord (.array items) f.written := by
  constructor
  · intro h
    -- Each field takes one item off the list, and in the end nothing may be left.
    rcases Json.bind_eq_ok h with ⟨⟨kind, _⟩, hitem, h⟩
    rcases (Json.nextItem_eq_ok_iff ..).mp hitem with ⟨_, rfl, hkind⟩
    rcases Json.bind_eq_ok h with ⟨⟨path, _⟩, hitem, h⟩
    rcases (Json.nextItem_eq_ok_iff ..).mp hitem with ⟨_, rfl, hpath⟩
    rcases Json.bind_eq_ok h with ⟨⟨line, _⟩, hitem, h⟩
    rcases (Json.nextItem_eq_ok_iff ..).mp hitem with ⟨_, rfl, hline⟩
    rcases Json.bind_eq_ok h with ⟨⟨column, _⟩, hitem, h⟩
    rcases (Json.nextItem_eq_ok_iff ..).mp hitem with ⟨_, rfl, hcolumn⟩
    rcases Json.bind_eq_ok h with ⟨⟨message, _⟩, hitem, h⟩
    rcases (Json.nextItem_eq_ok_iff ..).mp hitem with ⟨_, rfl, hmessage⟩
    rcases Json.bind_eq_ok h with ⟨⟨listed, _⟩, hitem, h⟩
    rcases (Json.nextItem_eq_ok_iff ..).mp hitem with ⟨_, rfl, hlisted⟩
    rcases Json.bind_eq_ok h with ⟨_, hend, h⟩
    rcases (Value.int64_eq_ok_iff _ kind).mp hkind with ⟨hkind, hrange⟩
    rw [hkind, (Value.text_eq_ok_iff _ path).mp hpath, (Value.int32_eq_ok_iff _ line).mp hline,
      (Value.int32_eq_ok_iff _ column).mp hcolumn, (Value.text_eq_ok_iff _ message).mp hmessage,
      (Value.flag_eq_ok_iff _ listed).mp hlisted, (Json.noMore_eq_ok_iff ..).mp hend,
      ← Except.ok.inj h]
    exact .array _ (inRange_written ⟨kind, path, line, column, message, listed⟩ hrange)
  · rintro ⟨⟩
    next hrange =>
    have hkind := (Value.int64_eq_ok_iff _ f.kindCode).mpr ⟨rfl, hrange.kind⟩
    have hline := Value.int32_ofInt f.line
    have hcolumn := Value.int32_ofInt f.column
    simp only [ofItems, written, Json.nextItem, hkind, hline, hcolumn, Value.text, Value.flag,
      Except.map, bind, Except.bind, Json.noMore, pure, Except.pure]

/-- The values whose fields are found. -/
theorem Fields.ofJson_eq_ok_iff (v : Value) (f : Fields) :
    ofJson v = .ok f ↔ IsRecord v f.written := by
  cases v with
  | object members => exact ofMembers_eq_ok_iff members f
  | array items => exact ofItems_eq_ok_iff items f
  | _ =>
    constructor
    · exact fun h => absurd h (by simp only [ofJson, reduceCtorEq, not_false_eq_true])
    · rintro ⟨⟩

/-! ## Markers -/

/-- The marker has the values as they were written; the path is written out, and the
    number is that of its kind. -/
structure Holds (s : Shorthand) (m : Marker) (w : Written) : Prop where
  kind : m.kind.code = w.kind
  path : m.path = s.expand w.path
  line : m.line.toInt = w.line
  column : m.column.toInt = w.column
  message : m.message = w.message
  showInErrorList : m.showInErrorList = w.showInErrorList

theorem ofFields_eq_ok_iff (s : Shorthand) (f : Fields) (m : Marker) :
    ofFields s f = .ok m ↔ m.Holds s f.written := by
  unfold ofFields
  constructor
  · intro h
    split at h
    · exact absurd h (by simp only [reduceCtorEq, not_false_eq_true])
    · next kind hkind =>
      rw [← Except.ok.inj h]
      exact ⟨((MarkerKind.ofCode?_eq_some_iff _ kind).mp hkind).symm, rfl, rfl, rfl, rfl, rfl⟩
  · rintro ⟨hkind, hpath, hline, hcolumn, hmessage, hlisted⟩
    have hfound := (MarkerKind.ofCode?_eq_some_iff f.kindCode m.kind).mpr hkind.symm
    rcases m with ⟨kind, path, line, column, message, listed⟩
    simp only [hfound, Except.ok.injEq, mk.injEq, true_and]
    exact ⟨hpath.symm, (Int32.toInt_inj.mp hline).symm, (Int32.toInt_inj.mp hcolumn).symm,
      hmessage.symm, hlisted.symm⟩

/-- The one fault that fields can have is the number of a kind that is not there. -/
theorem ofFields_eq_error_iff (s : Shorthand) (f : Fields) (fault : ItemFault) :
    ofFields s f = .error fault ↔
      fault = .unknownKind f.kindCode ∧ ¬ (0 ≤ f.kindCode ∧ f.kindCode ≤ 3) := by
  rw [← MarkerKind.ofCode?_eq_none_iff, ofFields]
  cases MarkerKind.ofCode? f.kindCode with
  | none => simp only [Except.error.injEq, and_true, eq_comm]
  | some kind => simp only [reduceCtorEq, and_false]

/-- A record has its fields found, and they are the values written. -/
theorem exists_fields_of_record (v : Value) (w : Written) (h : IsRecord v w) :
    ∃ f, Fields.ofJson v = .ok f ∧ f.written = w := by
  rcases w.exists_fields h.inRange with ⟨f, hf⟩
  exact ⟨f, (Fields.ofJson_eq_ok_iff v f).mpr (hf.symm ▸ h), hf⟩

theorem ofJson_eq_ok_iff (s : Shorthand) (v : Value) (m : Marker) :
    ofJson s v = .ok m ↔ ∃ w, IsRecord v w ∧ m.Holds s w := by
  constructor
  · intro h
    rw [ofJson] at h
    split at h
    · exact absurd h (by simp only [reduceCtorEq, not_false_eq_true])
    · next f hfields =>
      exact ⟨f.written, (Fields.ofJson_eq_ok_iff v f).mp hfields, (ofFields_eq_ok_iff s f m).mp h⟩
  · rintro ⟨w, hrecord, hholds⟩
    rcases exists_fields_of_record v w hrecord with ⟨f, hfields, rfl⟩
    rw [ofJson, hfields]
    exact (ofFields_eq_ok_iff s f m).mpr hholds

theorem ofJson_eq_unknownKind_iff (s : Shorthand) (v : Value) (n : Int) :
    ofJson s v = .error (.unknownKind n) ↔
      ∃ w, IsRecord v w ∧ w.kind = n ∧ ¬ (0 ≤ n ∧ n ≤ 3) := by
  constructor
  · intro h
    rw [ofJson] at h
    split at h
    · exact absurd h (by simp only [Except.error.injEq, reduceCtorEq, not_false_eq_true])
    · next f hfields =>
      rcases (ofFields_eq_error_iff s f _).mp h with ⟨hfault, hunknown⟩
      rw [ItemFault.unknownKind.injEq] at hfault
      rw [← hfault] at hunknown
      exact ⟨f.written, (Fields.ofJson_eq_ok_iff v f).mp hfields, hfault.symm, hunknown⟩
  · rintro ⟨w, hrecord, rfl, hunknown⟩
    rcases exists_fields_of_record v w hrecord with ⟨f, hfields, rfl⟩
    rw [ofJson, hfields]
    exact (ofFields_eq_error_iff s f _).mpr ⟨rfl, hunknown⟩

theorem ofJson_malformed_iff (s : Shorthand) (v : Value) :
    (∃ m, ofJson s v = .error (.malformed m)) ↔ ¬ ∃ w, IsRecord v w := by
  constructor
  · rintro ⟨m, h⟩ ⟨w, hrecord⟩
    rcases exists_fields_of_record v w hrecord with ⟨f, hfields, rfl⟩
    rw [ofJson, hfields] at h
    -- Fields that are found can only have the other fault.
    exact absurd ((ofFields_eq_error_iff s f _).mp h).1 (by simp only [reduceCtorEq,
      not_false_eq_true])
  · intro h
    cases hfields : Fields.ofJson v with
    | error m => exact ⟨m, by rw [ofJson, hfields]⟩
    | ok f => exact absurd ⟨f.written, (Fields.ofJson_eq_ok_iff v f).mp hfields⟩ h

/-- There is a marker with the values of a record just when there is its kind. -/
theorem exists_holds_iff (s : Shorthand) (w : Written) (h : w.InRange) :
    (∃ m : Marker, m.Holds s w) ↔ 0 ≤ w.kind ∧ w.kind ≤ 3 := by
  constructor
  · rintro ⟨m, hholds⟩
    rw [← hholds.kind]
    exact m.kind.code_mem_range
  · intro hknown
    rcases w.exists_fields h with ⟨f, rfl⟩
    cases hread : ofFields s f with
    | error fault => exact absurd hknown ((ofFields_eq_error_iff s f fault).mp hread).2
    | ok m => exact ⟨m, (ofFields_eq_ok_iff s f m).mp hread⟩

/-- A value is a marker just when it is a record in range with the number of a kind,
    and the marker has the values that are written there. If only the number is that of
    no kind, this is the fault, and the number is named. Every other value is malformed,
    and nothing else is. -/
theorem ofJson_exact (s : Shorthand) (v : Value) :
    ((∃ m, ofJson s v = .ok m) ↔ ∃ w, IsRecord v w ∧ 0 ≤ w.kind ∧ w.kind ≤ 3) ∧
      (∀ m, ofJson s v = .ok m ↔ ∃ w, IsRecord v w ∧ m.Holds s w) ∧
      (∀ n, ofJson s v = .error (.unknownKind n) ↔
        ∃ w, IsRecord v w ∧ w.kind = n ∧ ¬ (0 ≤ n ∧ n ≤ 3)) ∧
      ((∃ m, ofJson s v = .error (.malformed m)) ↔ ¬ ∃ w, IsRecord v w) := by
  refine ⟨?_, ofJson_eq_ok_iff s v, ofJson_eq_unknownKind_iff s v, ofJson_malformed_iff s v⟩
  simp only [ofJson_eq_ok_iff]
  constructor
  · rintro ⟨m, w, hrecord, hholds⟩
    exact ⟨w, hrecord, (exists_holds_iff s w hrecord.inRange).mp ⟨m, hholds⟩⟩
  · rintro ⟨w, hrecord, hknown⟩
    rcases (exists_holds_iff s w hrecord.inRange).mpr hknown with ⟨m, hholds⟩
    exact ⟨m, w, hrecord, hholds⟩

/-- One past the last number of 32 bits is refused, and not cut down. -/
example :
    ofJson .verbatim (.array [.ofInt 1, .string "a", .ofInt 0x80000000, .ofInt 1, .string "b",
      .bool true]) = .error (.malformed (.outOfRange 0x80000000 .int32)) := rfl

end Marker

end SourceMarkers
