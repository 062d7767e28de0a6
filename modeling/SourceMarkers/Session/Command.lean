import SourceMarkers.Marker.Wire
import SourceMarkers.Session.Request

/-!
# Commands

What a client can ask for. A command is made from the method and the
parameters of a request before anything is done, so that a request with bad
parameters changes nothing.

Parameters are a list, or `null` for an empty list. A command that needs none
does not look at them.

## Main definitions

* `Command`: What is asked for.
* `Command.ofRequest`: The command of a method and its parameters.
-/

namespace SourceMarkers

open Json (Value)

/-- What a client asks for. -/
inductive Command where
  /-- The display was closed, so everything is forgotten. -/
  | closeTab
  /-- Another set becomes the active one. -/
  | activate (name : String)
  /-- The active set is removed. -/
  | clearActive
  /-- A set is shown. -/
  | present (set : MarkerSet) (select : AutoSelect)
  /-- The present view is asked for. -/
  | getView

namespace Command

/-- The parameter at a position, if there are so many. -/
def param? (params : Value) (index : Nat) : Except ParamFault (Option Value) :=
  match params with
  | .null => .ok none
  | .array items => .ok items[index]?
  | _ => .error .notAnArray

/-- The parameter at a position. -/
def param (params : Value) (index : Nat) : Except ParamFault Value := do
  match ← param? params index with
  | none => .error (.missing index)
  | some v => .ok v

/-- The string at a position. -/
def textParam (params : Value) (index : Nat) : Except ParamFault String := do
  match ← param params index with
  | .string s => .ok s
  | _ => .error (.wrongType index .text)

/-- The choice of a value. -/
def selectOf? : Value → Option AutoSelect
  | .number (.whole n) => AutoSelect.ofCode? n
  | _ => none

/-- The choice at a position; without one, the first marker. -/
def selectParam (params : Value) (index : Nat) : Except ParamFault AutoSelect := do
  match ← param? params index with
  | none => .ok .first
  | some v =>
    match selectOf? v with
    | some select => .ok select
    | none => .error (.wrongType index .autoSelect)

/-- The command to show a set: the set, and then the choice of a marker. -/
def presentOf (s : Shorthand) (params : Value) : Logged (Except ParamFault Command) :=
  match param params 0 with
  | .error f => pure (.error f)
  | .ok v => do
    match ← MarkerSet.ofJson s v with
    | .error _ => pure (.error (.wrongType 0 .markerSet))
    | .ok set => pure ((selectParam params 1).map (Command.present set))

/-- The command of a method and its parameters. -/
def ofRequest (s : Shorthand) (method : String) (params : Value) :
    Logged (Except RequestFault Command) :=
  match method with
  | "markers_tab_closed" => pure (.ok .closeTab)
  | "update_active_marker_set" =>
    pure (((textParam params 0).map Command.activate).mapError .params)
  | "clear_active_marker_set" => pure (.ok .clearActive)
  | "show_markers" => do
    let command ← presentOf s params
    pure (command.mapError .params)
  | "get_markers_state" => pure (.ok .getView)
  | _ => pure (.error (.unknownMethod method))

end Command

end SourceMarkers
