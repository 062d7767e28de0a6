import SourceMarkers.Json.Record
import SourceMarkers.Proofs.Json.Members

/-!
# Fields that come back

A record is written by putting its fields together as the members of an object,
and read by looking each of them up. The two meet in one lemma: a field is read
as the last member with its name, wherever that one stands among the ordered
members.

Which fields are read at all is said for each reader apart, so that what a record
has to look like can be put together from the readers of its fields.

## Theorems

* `field?_ok`: A field that may hold anything.
* `field?_orderMembers`: A field of an object that is put together.
* `field?_eq_some_iff`, `required_eq_ok_iff`, `nextItem_eq_ok_iff`,
  `noMore_eq_ok_iff`: The fields that are read.
* `lookup_of_required`: A field that must be there.
* `Value.text_eq_ok_iff`, `Value.flag_eq_ok_iff`, `Value.list_eq_ok_iff`,
  `Value.int64_eq_ok_iff`, `Value.int32_eq_ok_iff`: What they hold.
* `Value.int32_ofInt`: A number of 32 bits is read as it was written.
-/

namespace SourceMarkers

namespace Json

/-- A field that may hold anything is the member. -/
theorem field?_ok (members : List (String × Value)) (name : String) :
    field? members name .ok = .ok (members.lookup name) := by
  unfold field?
  cases members.lookup name <;> rfl

/-- A field of an object that is put together is what the last member with its
    name is read as. -/
theorem field?_orderMembers {α : Type} (members : List (String × Value)) (name : String)
    (read : Value → Except Mismatch α) (v : Value) (a : α)
    (hlookup : members.reverse.lookup name = some v) (hread : read v = .ok a) :
    field? (orderMembers members) name read = .ok (some a) := by
  rw [field?, lookup_orderMembers, hlookup]
  simp only [hread]
  rfl

theorem field?_eq_some_iff {α : Type} (members : List (String × Value)) (name : String)
    (read : Value → Except Mismatch α) (a : α) :
    field? members name read = .ok (some a) ↔
      ∃ v, members.lookup name = some v ∧ read v = .ok a := by
  unfold field?
  cases members.lookup name with
  | none => simp only [Except.ok.injEq, reduceCtorEq, false_and, exists_false]
  | some v =>
    simp only [Option.some.injEq, exists_eq_left']
    cases read v with
    | error m => simp only [Except.map, reduceCtorEq]
    | ok b => simp only [Except.map, Except.ok.injEq, Option.some.injEq]

theorem required_eq_ok_iff {α : Type} (name : String) (a? : Option α) (a : α) :
    required name a? = .ok a ↔ a? = some a := by
  cases a? with
  | none => simp only [required, reduceCtorEq]
  | some b => simp only [required, Except.ok.injEq, Option.some.injEq]

/-- A field that must be there is what its member is read as. -/
theorem lookup_of_required {α : Type} (members : List (String × Value)) (name : String)
    (read : Value → Except Mismatch α) (a? : Option α) (a : α)
    (hfield : field? members name read = .ok a?) (hthere : required name a? = .ok a) :
    ∃ v, members.lookup name = some v ∧ read v = .ok a := by
  rw [(required_eq_ok_iff name a? a).mp hthere] at hfield
  exact (field?_eq_some_iff members name read a).mp hfield

theorem nextItem_eq_ok_iff {α : Type} (index : Nat) (want : Wanted)
    (read : Value → Except Mismatch α) (items rest : List Value) (a : α) :
    nextItem index want read items = .ok (a, rest) ↔
      ∃ v, items = v :: rest ∧ read v = .ok a := by
  cases items with
  | nil => simp only [nextItem, reduceCtorEq, false_and, exists_false]
  | cons v more =>
    simp only [nextItem, List.cons.injEq]
    cases hread : read v with
    | error m =>
      simp only [Except.map, reduceCtorEq, false_iff]
      rintro ⟨w, ⟨rfl, _⟩, hw⟩
      exact absurd (hread.symm.trans hw) (by simp only [reduceCtorEq, not_false_eq_true])
    | ok b =>
      simp only [Except.map, Except.ok.injEq, Prod.mk.injEq]
      constructor
      · rintro ⟨rfl, rfl⟩
        exact ⟨v, ⟨rfl, rfl⟩, hread⟩
      · rintro ⟨w, ⟨rfl, rfl⟩, hw⟩
        exact ⟨Except.ok.inj (hread.symm.trans hw), rfl⟩

theorem noMore_eq_ok_iff (count : Nat) (rest : List Value) (u : Unit) :
    noMore count rest = .ok u ↔ rest = [] := by
  cases rest with
  | nil => exact iff_of_true rfl rfl
  | cons v more => simp only [noMore, reduceCtorEq]

namespace Value

theorem text_eq_ok_iff (v : Value) (s : String) : v.text = .ok s ↔ v = .string s := by
  cases v <;> simp only [text, Except.ok.injEq, string.injEq, reduceCtorEq]

theorem list_eq_ok_iff (v : Value) (items : List Value) : v.list = .ok items ↔ v = .array items := by
  cases v <;> simp only [list, Except.ok.injEq, array.injEq, reduceCtorEq]

theorem flag_eq_ok_iff (v : Value) (b : Bool) : v.flag = .ok b ↔ v = .bool b := by
  cases v <;> simp only [flag, Except.ok.injEq, bool.injEq, reduceCtorEq]

/-- Only a whole number in range is read, and as it stands. -/
theorem wholeIn_eq_ok_iff (low high : Int) (want : Wanted) (v : Value) (n : Int) :
    v.wholeIn low high want = .ok n ↔ v = .ofInt n ∧ low ≤ n ∧ n < high := by
  unfold wholeIn ofInt
  split
  · next k =>
    by_cases hrange : low ≤ k ∧ k < high
    · rw [if_pos hrange, Except.ok.injEq, number.injEq, Number.whole.injEq]
      exact ⟨fun h => ⟨h, h ▸ hrange⟩, And.left⟩
    · rw [if_neg hrange, number.injEq, Number.whole.injEq]
      constructor
      · exact fun h => absurd h (by simp only [reduceCtorEq, not_false_eq_true])
      · rintro ⟨rfl, h⟩
        exact absurd h hrange
  · -- A double is no whole number, whatever its value is.
    next hother =>
    constructor
    · exact fun h => absurd h (by simp only [reduceCtorEq, not_false_eq_true])
    · exact fun h => absurd h.1 (hother n)

theorem int64_eq_ok_iff (v : Value) (n : Int) :
    v.int64 = .ok n ↔ v = .ofInt n ∧ -0x8000000000000000 ≤ n ∧ n < 0x8000000000000000 :=
  wholeIn_eq_ok_iff _ _ _ v n

theorem int32_ofInt (n : Int32) : (ofInt n.toInt).int32 = .ok n := by
  have hlow := n.le_toInt
  have hhigh := n.toInt_lt
  have hrange : -0x80000000 ≤ n.toInt ∧ n.toInt < 0x80000000 := ⟨by omega, by omega⟩
  rw [int32, ofInt, wholeIn, if_pos hrange]
  exact congrArg Except.ok (Int32.ofInt_toInt n)

/-- A number of 32 bits is read without a change. -/
theorem int32_eq_ok_iff (v : Value) (n : Int32) : v.int32 = .ok n ↔ v = .ofInt n.toInt := by
  constructor
  · intro h
    rw [int32] at h
    cases hwhole : v.wholeIn (-0x80000000) 0x80000000 .int32 with
    | error m =>
      rw [hwhole] at h
      exact absurd h (by simp only [Except.map, reduceCtorEq, not_false_eq_true])
    | ok k =>
      rcases (wholeIn_eq_ok_iff _ _ _ v k).mp hwhole with ⟨hv, hlow, hhigh⟩
      rw [hwhole] at h
      -- In this range nothing is lost in 32 bits.
      rw [hv, ← Except.ok.inj h, Int32.toInt_ofInt_of_le hlow hhigh]
  · rintro rfl
    exact int32_ofInt n

theorem fitsWhole_int32 (n : Int32) : FitsWhole n.toInt := by
  have hlow := n.le_toInt
  have hhigh := n.toInt_lt
  exact ⟨by omega, by omega⟩

end Value

end Json

end SourceMarkers
