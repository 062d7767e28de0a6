import SourceMarkers.Proofs.Json.Members
import SourceMarkers.Session.Basic

/-!
# What is sent to the client

Responses and events as the client reads them, member by member. Inside the program a
response is a result or a fault, and an event is a view with a choice; the client has
nothing but the objects that these are written as. What is said of a session from the
side of the client is said of these objects, and the lemmas here lead from one to the
other.

## Theorems

* `Response.toJson_ok`, `Response.toJson_error`: A response is written with a result or
  with an error.
* `Response.members_ok`, `Response.members_error`: The two members that tell them apart.
* `Event.toJson_eq`: An event is written with its name, the view and the number of the
  choice.
-/

namespace SourceMarkers

open Json (Value)

namespace Response

theorem toJson_error (id : Value) (f : RequestFault) :
    (Response.mk id (.error f)).toJson = .object [
      ("error", .object [("code", .ofInt f.code), ("message", .string f.message)]),
      ("id", id)] := by
  have hfault : f.toJson = .object [("code", .ofInt f.code), ("message", .string f.message)] :=
    (Value.ofMembers_pair "code" "message" _ _ (by decide)).1
  rw [← hfault]
  exact (Value.ofMembers_pair "error" "id" _ _ (by decide)).2

theorem toJson_ok (id result : Value) :
    (Response.mk id (.ok result)).toJson = .object [("id", id), ("result", result)] :=
  (Value.ofMembers_pair "id" "result" _ _ (by decide)).1

/-- A refusal carries an error and no result. -/
theorem members_error (id : Value) (f : RequestFault) :
    (∃ error, (Response.mk id (.error f)).toJson.member? "error" = some error) ∧
      (Response.mk id (.error f)).toJson.member? "result" = none := by
  rw [toJson_error]
  exact ⟨⟨_, rfl⟩, rfl⟩

/-- A success carries its result and no error. -/
theorem members_ok (id result : Value) :
    (Response.mk id (.ok result)).toJson.member? "error" = none ∧
      (Response.mk id (.ok result)).toJson.member? "result" = some result := by
  rw [toJson_ok]
  exact ⟨rfl, rfl⟩

/-- A response is no event. -/
theorem member?_event (r : Response) : r.toJson.member? "event" = none := by
  rcases r with ⟨id, f | result⟩
  · rw [toJson_error]
    rfl
  · rw [toJson_ok]
    rfl

end Response

namespace Event

theorem data_eq (e : Event) :
    e.data = .object [("auto_select", .ofInt e.select.code), ("markers_state", e.view)] :=
  (Value.ofMembers_pair "auto_select" "markers_state" _ _ (by decide)).2

/-- An event as the client reads it. -/
theorem toJson_eq (e : Event) :
    e.toJson = .object [("event", .string "markers_changed"),
      ("data", .object [("auto_select", .ofInt e.select.code), ("markers_state", e.view)])] := by
  rw [toJson, data_eq]
  rfl

/-- The view stands in the data of an event. -/
theorem member?_view_data (e : Event) : e.data.member? "markers_state" = some e.view := by
  rw [data_eq]
  rfl

end Event

end SourceMarkers
