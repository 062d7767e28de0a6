import SourceMarkers.Proofs.Json.RoundTrip
import SourceMarkers.Proofs.Session.Classes

/-!
# Requests that are no objects

A request is documented as an object, but it is read as a record, and a record
may also be written as a list of its fields. So a list with an identifier and a
method is carried out as the object with these members would be, though its
identifier is no member. The method may be followed by the parameters; the
fields after the identifier are not told apart by name.

Nothing else that is no object is a request. It is refused without an
identifier, nothing is changed and nothing is announced.

## Main definitions

* `Request.ofList?`: The request that a list stands for.

## Theorems

* `Request.ofItems_of_ofList?`, `Request.ofItems_of_ofList?_none`: Reading a
  list.
* `Session.answer_no_object`: What becomes of a value that is no object.
-/

namespace SourceMarkers

open Json (Value Mismatch)

namespace Request

/-- The request that a list stands for. -/
def ofList? : Value → Option Request
  | .array [id, .string method] => some ⟨id, method, .null⟩
  | .array [id, .string method, params] => some ⟨id, method, params⟩
  | _ => none

/-- A list that stands for a request is read as that request. -/
theorem ofItems_of_ofList? (items : List Value) (r : Request)
    (h : ofList? (.array items) = some r) : ofItems items = .ok r := by
  unfold ofList? at h
  split at h
  · next hitems =>
    rw [Value.array.inj hitems, ← Option.some.inj h]
    rfl
  · next hitems =>
    rw [Value.array.inj hitems, ← Option.some.inj h]
    rfl
  · exact absurd h (by simp only [reduceCtorEq, not_false_eq_true])

/-- Another list is too short, too long, or has no string for a method. -/
theorem ofItems_of_ofList?_none (items : List Value) (h : ofList? (.array items) = none) :
    ∃ m, ofItems items = .error m := by
  rcases items with _ | ⟨id, _ | ⟨method, rest⟩⟩
  · exact ⟨_, rfl⟩
  · exact ⟨_, rfl⟩
  cases method with
  | string name =>
    rcases rest with _ | ⟨params, _ | ⟨extra, more⟩⟩
    · exact absurd h (by simp only [ofList?, reduceCtorEq, not_false_eq_true])
    · exact absurd h (by simp only [ofList?, reduceCtorEq, not_false_eq_true])
    · exact ⟨_, rfl⟩
  | _ => exact ⟨_, rfl⟩

/-- A value that is no object is read as the request that it stands for, or as
    none. -/
theorem ofJson_of_no_object (v : Value) (h : ∀ members, v ≠ .object members) :
    match ofList? v with
    | some r => ofJson v = .ok r
    | none => ∃ m, ofJson v = .error m := by
  cases v with
  | object members => exact absurd rfl (h members)
  | array items =>
    cases hlist : ofList? (.array items) with
    | some r => exact ofItems_of_ofList? items r hlist
    | none => exact ofItems_of_ofList?_none items hlist
  | _ => exact ⟨_, rfl⟩

end Request

namespace Session

/-- A value that is no object is refused without an identifier and without a
    trace, unless it is a list that stands for a request; that one is carried
    out. -/
theorem answer_no_object (s : Session) (cs : List Char) (v : Value)
    (hparse : Json.parseChars cs = .ok v) (hkind : ∀ members, v ≠ .object members) :
    match Request.ofList? v with
    | some r => s.answer cs = s.serveRequest r
    | none => (s.answer cs).response.toJson.IsRefusal .null (-32600) ∧
      (s.answer cs).session = s ∧ (s.answer cs).events = [] := by
  have hread := Request.ofJson_of_no_object v hkind
  -- Only objects have members, so the identifier is missing.
  have hid : v.member? "id" = none := by
    cases v with
    | object members => exact absurd rfl (hkind members)
    | _ => rfl
  unfold answer
  cases hlist : Request.ofList? v with
  | some r =>
    rw [hlist] at hread
    simp only [hparse, hread]
  | none =>
    rw [hlist] at hread
    rcases hread with ⟨m, hm⟩
    simp only [hparse, hm, hid]
    exact ⟨(Response.isRefusal_error_iff _ _ _).mpr rfl, rfl, rfl⟩

/-- A list of one item is no request. -/
theorem answer_no_object_single :
    Json.parseChars "[1]".toList = .ok (.array [.ofInt 1]) ∧
      (∀ members, Value.array [.ofInt 1] ≠ .object members) ∧
      ((new .verbatim).answer "[1]".toList).response.toJson.IsRefusal .null (-32600) := by
  have hreadable : ∀ v ∈ [Value.ofInt 1], v.Readable (Json.depthLimit - 1) := by
    rw [List.forall_mem_cons]
    exact ⟨Value.readable_ofInt _ 1 ⟨by decide, by decide⟩, List.forall_mem_nil _⟩
  have htext : (Value.array [.ofInt 1]).chars = "[1]".toList := by decide
  have hparse : Json.parseChars "[1]".toList = .ok (.array [.ofInt 1]) := by
    rw [← htext]
    exact Json.parseChars_array _ hreadable
  have hkind : ∀ members, Value.array [.ofInt 1] ≠ .object members := fun members h =>
    absurd h (by simp only [reduceCtorEq, not_false_eq_true])
  exact ⟨hparse, hkind, (answer_no_object (new .verbatim) _ _ hparse hkind).1⟩

/-- A list that closes the display: the set is forgotten, the client is told,
    and the response is a success with the first item for an identifier. -/
theorem answer_list_closes :
    let s := (new .verbatim).withCatalog ⟨"build", [⟨"build", none, []⟩]⟩
    let line := "[1,\"markers_tab_closed\"]".toList
    Json.parseChars line = .ok (.array [.ofInt 1, .string "markers_tab_closed"]) ∧
      (s.answer line).response.toJson.IsSuccess (.ofInt 1) ∧
      (s.answer line).session.catalog = .empty ∧ (s.answer line).events.length = 1 := by
  intro s line
  have hreadable : ∀ v ∈ [Value.ofInt 1, .string "markers_tab_closed"],
      v.Readable (Json.depthLimit - 1) := by
    rw [List.forall_mem_cons, List.forall_mem_cons]
    exact ⟨Value.readable_ofInt _ 1 ⟨by decide, by decide⟩, Value.readable_string _ _,
      List.forall_mem_nil _⟩
  have htext : (Value.array [.ofInt 1, .string "markers_tab_closed"]).chars = line := by decide
  have hparse : Json.parseChars line = .ok (.array [.ofInt 1, .string "markers_tab_closed"]) := by
    rw [← htext]
    exact Json.parseChars_array _ hreadable
  have hserve : s.answer line = s.serveRequest ⟨.ofInt 1, "markers_tab_closed", .null⟩ := by
    unfold answer
    rw [hparse]
    rfl
  rw [hserve]
  exact ⟨hparse, Response.isSuccess_ok _ .null, rfl, rfl⟩

end Session

end SourceMarkers
