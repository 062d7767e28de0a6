import SourceMarkers.Json.Value
import SourceMarkers.Json.Printer
import SourceMarkers.Text.Quoted

/-!
# Records in JSON

Reading a value as a record with named fields. A record is written as an
object with its fields as members, or as an array with its fields in order.

Of an object, the members are looked at in the order of their names, so of two
ill-typed fields the one whose name comes first is reported; a field that is
missing is reported only when all that are there are good. Of an array, the
fields are looked at in their own order, and an array that is too short is
found out at its end. Only a whole number is read as a number.

## Main definitions

* `Wanted`: What a field must hold.
* `Mismatch`: Why a value is no such record.
* `Value.int64`, `Value.int32`, `Value.text`, `Value.flag`, `Value.list`: The
  readers of single fields.
* `field?`, `required`: Fields of an object.
* `nextItem`, `noMore`: Fields of an array.
-/

namespace SourceMarkers

namespace Json

/-- What a value was to be. -/
inductive Wanted where
  | int64
  | int32
  | text
  | flag
  | list
  /-- A record with a name and a number of fields. -/
  | record (name : String) (size : Nat)
deriving DecidableEq, Repr

/-- The name of what was wanted. -/
def Wanted.label : Wanted → String
  | .int64 => "i64"
  | .int32 => "i32"
  | .text => "a string"
  | .flag => "a boolean"
  | .list => "a sequence"
  | .record name _ => s!"struct {name}"

/-- Why a value is not what was wanted. -/
inductive Mismatch where
  /-- It is of another kind. -/
  | wrongKind (got : Value) (want : Wanted)
  /-- It is a whole number out of range. -/
  | outOfRange (n : Int) (want : Wanted)
  /-- An object lacks a field. -/
  | missing (field : String)
  /-- An array ends after `count` items, before a field that must be there. -/
  | tooShort (count : Nat) (want : Wanted)
  /-- An array of `count` items goes on after the last field. -/
  | tooLong (count : Nat)
deriving Repr

/-- The kind of value that was met, as messages name it. -/
def Value.kindLabel : Value → String
  | .null => "null"
  | .bool b => s!"boolean `{b}`"
  | .number (.whole n) => s!"integer `{n}`"
  | .number (.double x) => s!"floating point `{String.ofList x.render}`"
  | .string s => s!"string {Text.quote s}"
  | .array _ => "sequence"
  | .object _ => "map"

/-- The message of a mismatch. -/
def Mismatch.message : Mismatch → String
  | .wrongKind got want => s!"invalid type: {got.kindLabel}, expected {want.label}"
  | .outOfRange n want => s!"invalid value: integer `{n}`, expected {want.label}"
  | .missing field => s!"missing field `{field}`"
  | .tooShort count (.record name size) =>
    s!"invalid length {count}, expected struct {name} with {size} elements"
  | .tooShort count want => s!"invalid length {count}, expected {want.label}"
  | .tooLong count => s!"invalid length {count}, expected fewer elements in array"

namespace Value

/-- A whole number in the range from `low` to below `high`. -/
def wholeIn (low high : Int) (want : Wanted) : Value → Except Mismatch Int
  | .number (.whole n) =>
    if low ≤ n ∧ n < high then .ok n else .error (.outOfRange n want)
  | v => .error (.wrongKind v want)

/-- A whole number of 64 bits. -/
def int64 (v : Value) : Except Mismatch Int :=
  v.wholeIn (-0x8000000000000000) 0x8000000000000000 .int64

/-- A whole number of 32 bits. -/
def int32 (v : Value) : Except Mismatch Int32 :=
  (v.wholeIn (-0x80000000) 0x80000000 .int32).map Int32.ofInt

/-- A string. -/
def text : Value → Except Mismatch String
  | .string s => .ok s
  | v => .error (.wrongKind v .text)

/-- A string, or `null` for none. -/
def text? : Value → Except Mismatch (Option String)
  | .null => .ok none
  | v => v.text.map some

/-- A boolean. -/
def flag : Value → Except Mismatch Bool
  | .bool b => .ok b
  | v => .error (.wrongKind v .flag)

/-- The items of an array. -/
def list : Value → Except Mismatch (List Value)
  | .array items => .ok items
  | v => .error (.wrongKind v .list)

end Value

/-- The field of an object, none when the object has no such member. -/
def field? {α : Type} (members : List (String × Value)) (name : String)
    (read : Value → Except Mismatch α) : Except Mismatch (Option α) :=
  match members.lookup name with
  | none => .ok none
  | some v => (read v).map some

/-- A field that must be there. -/
def required {α : Type} (name : String) : Option α → Except Mismatch α
  | none => .error (.missing name)
  | some a => .ok a

/-- The field at position `index` of an array whose rest is `items`. -/
def nextItem {α : Type} (index : Nat) (want : Wanted) (read : Value → Except Mismatch α) :
    List Value → Except Mismatch (α × List Value)
  | [] => .error (.tooShort index want)
  | v :: rest => (read v).map fun a => (a, rest)

/-- Nothing stands after the last field of an array with `count` items. -/
def noMore (count : Nat) : List Value → Except Mismatch Unit
  | [] => .ok ()
  | _ :: _ => .error (.tooLong count)

end Json

end SourceMarkers
