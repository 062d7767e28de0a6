import SourceMarkers.Json.Record
import SourceMarkers.Log
import SourceMarkers.Marker.Basic
import SourceMarkers.Path.Shorthand

/-!
# Markers on the wire

How markers and marker sets are written in documents and messages, and how
they are read. Paths are written short and read back in full.

A base path is written with a slash at its end, and `null` when there is none;
an empty text is read as none. A marker that cannot be read is left out of its
set with a warning, and never spoils the rest of the set.

## Main definitions

* `ItemFault`: Why a marker or a set cannot be read.
* `Marker.toJson`, `Marker.ofJson`: A marker.
* `MarkerSet.toJson`, `MarkerSet.ofJson`: A set.
-/

namespace SourceMarkers

open Json (Value Mismatch)

/-- Why a marker or a marker set cannot be read. -/
inductive ItemFault where
  /-- The value is no such record. -/
  | malformed (m : Mismatch)
  /-- The record is good, but no kind has this number. -/
  | unknownKind (n : Int)
deriving Repr

/-- The message of a fault. -/
def ItemFault.message : ItemFault → String
  | .malformed m => s!"Malformed entry: {m.message}"
  | .unknownKind n => s!"Unknown marker type {n}"

namespace Marker

/-- A marker as it is written. -/
def toJson (s : Shorthand) (m : Marker) : Value :=
  .ofMembers [
    ("type", .ofInt m.kind.code),
    ("path", .string (s.shorten m.path)),
    ("line", .ofInt m.line.toInt),
    ("column", .ofInt m.column.toInt),
    ("message", .string m.message),
    ("show_error_list", .bool m.showInErrorList)]

/-- The fields of a written marker, before its kind is looked up and its path
    written out. -/
structure Fields where
  kindCode : Int
  path : String
  line : Int32
  column : Int32
  message : String
  showInErrorList : Bool
deriving DecidableEq

/-- What a marker is to be written as. -/
def wanted : Json.Wanted := .record "MarkerRecord" 6

/-- The fields from the members of an object. -/
def Fields.ofMembers (members : List (String × Value)) : Except Mismatch Fields := do
  let column ← Json.field? members "column" Value.int32
  let line ← Json.field? members "line" Value.int32
  let message ← Json.field? members "message" Value.text
  let path ← Json.field? members "path" Value.text
  let listed ← Json.field? members "show_error_list" Value.flag
  let kind ← Json.field? members "type" Value.int64
  return {
    kindCode := ← Json.required "type" kind
    path := ← Json.required "path" path
    line := ← Json.required "line" line
    column := ← Json.required "column" column
    message := ← Json.required "message" message
    showInErrorList := ← Json.required "show_error_list" listed }

/-- The fields from the items of an array. -/
def Fields.ofItems (items : List Value) : Except Mismatch Fields := do
  let (kind, rest) ← Json.nextItem 0 wanted Value.int64 items
  let (path, rest) ← Json.nextItem 1 wanted Value.text rest
  let (line, rest) ← Json.nextItem 2 wanted Value.int32 rest
  let (column, rest) ← Json.nextItem 3 wanted Value.int32 rest
  let (message, rest) ← Json.nextItem 4 wanted Value.text rest
  let (listed, rest) ← Json.nextItem 5 wanted Value.flag rest
  Json.noMore items.length rest
  return ⟨kind, path, line, column, message, listed⟩

/-- The fields of a written marker. -/
def Fields.ofJson : Value → Except Mismatch Fields
  | .object members => Fields.ofMembers members
  | .array items => Fields.ofItems items
  | v => .error (.wrongKind v wanted)

/-- The marker with the given fields. -/
def ofFields (s : Shorthand) (f : Fields) : Except ItemFault Marker :=
  match MarkerKind.ofCode? f.kindCode with
  | none => .error (.unknownKind f.kindCode)
  | some kind =>
    .ok ⟨kind, s.expand f.path, f.line, f.column, f.message, f.showInErrorList⟩

/-- Reads a marker. -/
def ofJson (s : Shorthand) (v : Value) : Except ItemFault Marker :=
  match Fields.ofJson v with
  | .error m => .error (.malformed m)
  | .ok f => ofFields s f

end Marker

namespace MarkerSet

/-- A base path as it is written: with a slash at the end. -/
def baseText (s : Shorthand) (base : Path) : String :=
  let text := s.shorten base
  if text.toList.getLast? = some '/' then text else text.push '/'

/-- A marker set as it is written. -/
def toJson (s : Shorthand) (set : MarkerSet) : Value :=
  .ofMembers [
    ("name", .string set.name),
    ("base_path", .ofString? (set.basePath.map (baseText s))),
    ("markers", .array (set.markers.map (Marker.toJson s)))]

/-- The fields of a written set. -/
structure Fields where
  name : String
  base? : Option String
  markers : List Value

/-- What a set is to be written as. -/
def wanted : Json.Wanted := .record "MarkerSetRecord" 3

/-- The fields from the members of an object. -/
def Fields.ofMembers (members : List (String × Value)) : Except Mismatch Fields := do
  let base? ← Json.field? members "base_path" Value.text?
  let markers ← Json.field? members "markers" Value.list
  let name ← Json.field? members "name" Value.text
  return {
    name := ← Json.required "name" name
    base? := base?.join
    markers := ← Json.required "markers" markers }

/-- The fields from the items of an array. The base path may be left out only
    together with what follows it, and so never is. -/
def Fields.ofItems (items : List Value) : Except Mismatch Fields := do
  let (name, rest) ← Json.nextItem 0 wanted Value.text items
  let (base?, rest) ←
    match rest with
    | [] => pure (none, [])
    | _ :: _ => Json.nextItem 1 wanted Value.text? rest
  let (markers, rest) ← Json.nextItem 2 wanted Value.list rest
  Json.noMore items.length rest
  return ⟨name, base?, markers⟩

/-- The fields of a written set. -/
def Fields.ofJson : Value → Except Mismatch Fields
  | .object members => Fields.ofMembers members
  | .array items => Fields.ofItems items
  | v => .error (.wrongKind v wanted)

/-- The markers of a set that can be read, in order; each of the others gives a
    warning. -/
def readMarkers (s : Shorthand) (name : String) : List Value → Logged (List Marker)
  | [] => pure []
  | v :: rest =>
    match Marker.ofJson s v with
    | .ok m => do
      let ms ← readMarkers s name rest
      pure (m :: ms)
    | .error e => do
      Logged.tell .warn s!"Skipping marker in set '{name}': {e.message}"
      readMarkers s name rest

/-- The base path of a text; an empty text is none. -/
def baseOf? (s : Shorthand) (text? : Option String) : Option Path :=
  (text?.filter fun text => !text.isEmpty).map s.expand

/-- Reads a marker set. -/
def ofJson (s : Shorthand) (v : Value) : Logged (Except ItemFault MarkerSet) :=
  match Fields.ofJson v with
  | .error m => pure (.error (.malformed m))
  | .ok f => do
    let markers ← readMarkers s f.name f.markers
    pure (.ok ⟨f.name, baseOf? s f.base?, markers⟩)

end MarkerSet

end SourceMarkers
