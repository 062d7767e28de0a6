import SourceMarkers.Catalog.Basic
import SourceMarkers.Marker.Wire

/-!
# The catalog as a document

How a catalog is written as one JSON document, how a document is read back,
and the view of a catalog that displays get: the names of all sets with the
contents of the active one, or nothing at all when no set is active.

A document is read as a whole or not at all: without an active name and a list
of sets there is no catalog. Inside the list, a set that cannot be read and a
set whose name was already taken are left out, each with a warning.

## Main definitions

* `DocumentFault`: Why a document is no catalog.
* `Catalog.toJson`: The document of a catalog.
* `Catalog.ofDocument`: The catalog of a document.
* `Catalog.view`: What displays get.
-/

namespace SourceMarkers

open Json (Value)

/-- The fields that a document must have. -/
inductive DocumentField where
  | activeSet
  | sets
deriving DecidableEq, Repr

namespace DocumentField

/-- The name of a field. -/
def label : DocumentField → String
  | .activeSet => "active_set"
  | .sets => "sets"

/-- What a field must hold. -/
def expected : DocumentField → String
  | .activeSet => "a string"
  | .sets => "an array"

end DocumentField

/-- Why a document is no catalog. -/
inductive DocumentFault where
  | notAnObject
  | missing (field : DocumentField)
  | wrongType (field : DocumentField)
deriving DecidableEq, Repr

/-- The message of a fault. -/
def DocumentFault.message : DocumentFault → String
  | .notAnObject => "Markers document is not a JSON object"
  | .missing field => s!"Markers document is missing field '{field.label}'"
  | .wrongType field =>
    s!"Markers document field '{field.label}' must be {field.expected}"

namespace Catalog

/-- The document of a catalog. -/
def toJson (s : Shorthand) (c : Catalog) : Value :=
  .ofMembers [
    ("active_set", .string c.active),
    ("sets", .array (c.sets.map (MarkerSet.toJson s)))]

/-- The sets of a list that can be read and have a new name, behind those in
    `kept` (latest first). -/
def readSets (s : Shorthand) : List MarkerSet → List Value → Logged (List MarkerSet)
  | kept, [] => pure kept.reverse
  | kept, v :: rest => do
    match ← MarkerSet.ofJson s v with
    | .error e =>
      Logged.tell .warn s!"Skipping marker set: {e.message}"
      readSets s kept rest
    | .ok set =>
      if set.name ∈ kept.map MarkerSet.name then
        Logged.tell .warn s!"Skipping duplicate marker set '{set.name}'"
        readSets s kept rest
      else readSets s (set :: kept) rest

/-- The active name and the list of sets of a document. -/
def documentParts : Value → Except DocumentFault (String × List Value)
  | .object members =>
    match members.lookup "active_set" with
    | none => .error (.missing .activeSet)
    | some (.string active) =>
      match members.lookup "sets" with
      | none => .error (.missing .sets)
      | some (.array sets) => .ok (active, sets)
      | some _ => .error (.wrongType .sets)
    | some _ => .error (.wrongType .activeSet)
  | _ => .error .notAnObject

/-- The catalog of a document. A document that is refused is not worth an
    entry here, so entries come with a catalog only. -/
def ofDocument (s : Shorthand) (doc : Value) : Except DocumentFault (Logged Catalog) :=
  (documentParts doc).map fun (active, values) => do
    let sets ← readSets s [] values
    Logged.tell .debug s!"Loaded {sets.length} marker sets (active: '{active}')"
    pure ⟨active, sets⟩

/-- What displays get: the names of all sets and the active set, or `null` for
    both when no set is active. -/
def view (s : Shorthand) (c : Catalog) : Value :=
  match c.active? with
  | none => .ofMembers [("names", .null), ("markers", .null)]
  | some set =>
    .ofMembers [
      ("names", .array (c.names.map Value.string)),
      ("markers", set.toJson s)]

end Catalog

end SourceMarkers
