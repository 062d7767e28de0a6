import SourceMarkers.Decimal.Binary64

/-!
# JSON values

The values that documents, requests and answers are made of. A number is a
whole number or a double, and the two are never equal, so `1` and `1.0` stay
apart. The members of an object are kept in the order of their names, each
name once.

## Main definitions

* `Number`, `Value`: The values.
* `insertMember`: A member added in its place, or put for the one of its name.
* `Value.ofMembers`: The object with the given members, a later one winning
  over an earlier one of its name.
* `Value.member?`: A member of an object by its name.
* `Value.Ordered`: Every object inside has its members in order, each once.
* `Value.depth`: How deep arrays and objects are nested.
* `Value.Whole`: No number inside is a double.
-/

namespace SourceMarkers

namespace Json

/-- A JSON number: whole, or a double. -/
inductive Number where
  | whole (n : Int)
  | double (x : Binary64)
deriving DecidableEq, Repr

/-- A JSON value. -/
inductive Value where
  | null
  | bool (b : Bool)
  | number (n : Number)
  | string (s : String)
  | array (items : List Value)
  | object (members : List (String × Value))
deriving Repr

/-- Puts a member into a list that is ordered by name, in place of one with
    the same name. -/
def insertMember {α : Type} (name : String) (value : α) :
    List (String × α) → List (String × α)
  | [] => [(name, value)]
  | (other, held) :: rest =>
    if name = other then (name, value) :: rest
    else if name < other then (name, value) :: (other, held) :: rest
    else (other, held) :: insertMember name value rest

/-- The members in the order of their names, of each name the last. -/
def orderMembers {α : Type} (members : List (String × α)) : List (String × α) :=
  members.foldl (fun ordered member => insertMember member.1 member.2 ordered) []

namespace Value

/-- The object with the given members; of one name the last counts. -/
def ofMembers (members : List (String × Value)) : Value := .object (orderMembers members)

/-- The whole number `n`. -/
def ofInt (n : Int) : Value := .number (.whole n)

/-- The string or `null`. -/
def ofString? : Option String → Value
  | none => .null
  | some s => .string s

/-- The member of an object with the given name; nothing else has members. -/
def member? (name : String) : Value → Option Value
  | .object members => members.lookup name
  | _ => none

mutual

/-- How deep arrays and objects are nested, the value itself counted. -/
def depth : Value → Nat
  | .array items => depthItems items + 1
  | .object members => depthMembers members + 1
  | _ => 0

/-- The greatest depth in a list of values. -/
def depthItems : List Value → Nat
  | [] => 0
  | v :: rest => max v.depth (depthItems rest)

/-- The greatest depth in a list of members. -/
def depthMembers : List (String × Value) → Nat
  | [] => 0
  | (_, v) :: rest => max v.depth (depthMembers rest)

end

mutual

/-- Every object inside has its members in order of name, each name once. -/
def Ordered : Value → Prop
  | .array items => OrderedItems items
  | .object members =>
    (members.map Prod.fst).Pairwise (· < ·) ∧ OrderedMembers members
  | _ => True

/-- Every value of a list is ordered. -/
def OrderedItems : List Value → Prop
  | [] => True
  | v :: rest => v.Ordered ∧ OrderedItems rest

/-- Every value of a list of members is ordered. -/
def OrderedMembers : List (String × Value) → Prop
  | [] => True
  | (_, v) :: rest => v.Ordered ∧ OrderedMembers rest

end

/-- A whole number that a reader keeps whole: 64 bits, with or without a
    sign. -/
def FitsWhole (n : Int) : Prop := -0x8000000000000000 ≤ n ∧ n < 0x10000000000000000

mutual

/-- No number inside is a double, and all are in the range of whole
    numbers. -/
def Whole : Value → Prop
  | .number (.whole n) => FitsWhole n
  | .number (.double _) => False
  | .array items => WholeItems items
  | .object members => WholeMembers members
  | _ => True

/-- The values of a list hold no double. -/
def WholeItems : List Value → Prop
  | [] => True
  | v :: rest => v.Whole ∧ WholeItems rest

/-- The values of the members hold no double. -/
def WholeMembers : List (String × Value) → Prop
  | [] => True
  | (_, v) :: rest => v.Whole ∧ WholeMembers rest

end

end Value

end Json

end SourceMarkers
