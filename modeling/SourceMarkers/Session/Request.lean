import SourceMarkers.Json.Parser
import SourceMarkers.Json.Record

/-!
# Requests and responses

A client sends one request in a line: a JSON record with an identifier that is
handed back with the response, a method, and parameters for it. Each request
gets one response, which holds the identifier and either a result or an error
with a number and a message.

A line that is no text or no JSON text has no identifier. A JSON value that is
no request may still have a member `id`, and then that one is handed back.

## Main definitions

* `ParamFault`, `RequestFault`: Why a request is refused.
* `Request`: A request.
* `Request.ofJson`: The request of a value.
* `Response`: What is sent back.
-/

namespace SourceMarkers

open Json (Value Mismatch)

/-- What a parameter must be. -/
inductive ParamKind where
  | text
  | markerSet
  | autoSelect
deriving DecidableEq, Repr

/-- The name of what a parameter must be. -/
def ParamKind.label : ParamKind → String
  | .text => "a string"
  | .markerSet => "a marker set"
  | .autoSelect => "an auto-select value (0, 1 or 2)"

/-- Why the parameters of a request are refused. -/
inductive ParamFault where
  | notAnArray
  | missing (index : Nat)
  | wrongType (index : Nat) (expected : ParamKind)
deriving DecidableEq, Repr

/-- The message of a fault in the parameters. -/
def ParamFault.message : ParamFault → String
  | .notAnArray => "Expected params to be an array"
  | .missing index => s!"Missing param at index {index}"
  | .wrongType index expected => s!"Param at index {index} must be {expected.label}"

/-- Why a request is refused. -/
inductive RequestFault where
  | notText (f : Utf8.Fault)
  | notJson (f : Json.Fault)
  | notARequest (m : Mismatch)
  | unknownMethod (method : String)
  | params (f : ParamFault)
deriving Repr

namespace RequestFault

/-- The message of a refusal. -/
def message : RequestFault → String
  | .notText f => s!"Parse error: {f.message}"
  | .notJson f => s!"Parse error: {f.message}"
  | .notARequest m => s!"Invalid request: {m.message}"
  | .unknownMethod method => s!"Method not found: {method}"
  | .params f => s!"Invalid params: {f.message}"

/-- The number of a refusal. -/
def code : RequestFault → Int
  | .notText _ => -32700
  | .notJson _ => -32700
  | .notARequest _ => -32600
  | .unknownMethod _ => -32601
  | .params _ => -32602

/-- The error of a refused request as it is written. -/
def toJson (f : RequestFault) : Value :=
  .ofMembers [("code", .ofInt f.code), ("message", .string f.message)]

end RequestFault

/-- A request: the identifier to hand back, what to do, and with what. -/
structure Request where
  id : Value
  method : String
  params : Value

namespace Request

/-- What a request is to be written as. -/
def wanted : Json.Wanted := .record "Request" 3

/-- The request with the given members. -/
def ofMembers (members : List (String × Value)) : Except Mismatch Request := do
  let id ← Json.field? members "id" .ok
  let method ← Json.field? members "method" Value.text
  let params ← Json.field? members "params" .ok
  let method ← Json.required "method" method
  return ⟨id.getD .null, method, params.getD .null⟩

/-- The request with the given fields in order. The identifier may be left out
    only together with what follows it, and so never is; the parameters may. -/
def ofItems (items : List Value) : Except Mismatch Request := do
  let (method, rest) ← Json.nextItem 1 wanted Value.text items.tail
  Json.noMore items.length rest.tail
  return ⟨items.headD .null, method, rest.headD .null⟩

/-- The request of a value. -/
def ofJson : Value → Except Mismatch Request
  | .object members => ofMembers members
  | .array items => ofItems items
  | v => .error (.wrongKind v wanted)

end Request

/-- What is sent back for a request. -/
structure Response where
  id : Value
  outcome : Except RequestFault Value

/-- A response as it is written. -/
def Response.toJson (r : Response) : Value :=
  match r.outcome with
  | .ok result => .ofMembers [("id", r.id), ("result", result)]
  | .error f => .ofMembers [("id", r.id), ("error", f.toJson)]

end SourceMarkers
