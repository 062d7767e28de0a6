import SourceMarkers.Json.Printer
import SourceMarkers.Marker.Basic

/-!
# Events

What a client is told when the catalog may have changed: the new view, and
which marker to select.

An event is written with its name in front of its data, which is not the order
of names; inside the data the members stand in order.

## Main definitions

* `Event`: A change.
* `Event.chars`: The text of an event.
-/

namespace SourceMarkers

open Json (Value)

/-- An announcement to the client: the new view, and which marker to select. -/
structure Event where
  view : Value
  select : AutoSelect

namespace Event

/-- The name of every event. -/
def name : String := "markers_changed"

/-- The data of an event. -/
def data (e : Event) : Value :=
  .ofMembers [("markers_state", e.view), ("auto_select", .ofInt e.select.code)]

/-- An event as a value. -/
def toJson (e : Event) : Value :=
  .object [("event", .string name), ("data", e.data)]

/-- The text of an event. -/
def chars (e : Event) : List Char := e.toJson.chars

end Event

end SourceMarkers
