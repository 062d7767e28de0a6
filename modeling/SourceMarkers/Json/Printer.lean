import SourceMarkers.Json.Value
import SourceMarkers.Decimal.Shortest

/-!
# Writing JSON

The compact text of a value: no blanks, members in the order they are held.
In a string the quote mark, the backslash and the controls are escaped, with
the short form where there is one, and nothing else is. So the text holds no
line end, and one value is one line.

## Main definitions

* `escapeChar`, `quote`: Characters and strings as they are written.
* `Value.chars`: The text of a value.
* `Value.render`: The same as a string.
-/

namespace SourceMarkers

namespace Json

/-- The lower-case digit of a number below 16. -/
def hexDigit (n : Nat) : Char := Nat.digitChar n

/-- A character inside a string. -/
def escapeChar (c : Char) : List Char :=
  if c = '"' then ['\\', '"']
  else if c = '\\' then ['\\', '\\']
  else if c = '\n' then ['\\', 'n']
  else if c = '\r' then ['\\', 'r']
  else if c = '\t' then ['\\', 't']
  else if c = '\x08' then ['\\', 'b']
  else if c = '\x0c' then ['\\', 'f']
  else if c.toNat < 0x20 then
    ['\\', 'u', '0', '0', hexDigit (c.toNat / 16), hexDigit (c.toNat % 16)]
  else [c]

/-- A string between quotes. -/
def quote (s : String) : List Char := '"' :: s.toList.flatMap escapeChar ++ ['"']

/-- A whole number in decimal. -/
def wholeChars (n : Int) : List Char :=
  if n < 0 then '-' :: Nat.toDigits 10 n.natAbs else Nat.toDigits 10 n.natAbs

/-- A number. -/
def Number.chars : Number → List Char
  | .whole n => wholeChars n
  | .double x => x.render

namespace Value

mutual

/-- The compact text of a value. -/
def chars : Value → List Char
  | .null => ['n', 'u', 'l', 'l']
  | .bool true => ['t', 'r', 'u', 'e']
  | .bool false => ['f', 'a', 'l', 's', 'e']
  | .number n => n.chars
  | .string s => quote s
  | .array [] => ['[', ']']
  | .array (v :: rest) => '[' :: v.chars ++ moreItems rest ++ [']']
  | .object [] => ['\x7b', '\x7d']
  | .object ((name, v) :: rest) =>
    '\x7b' :: quote name ++ ':' :: v.chars ++ moreMembers rest ++ ['\x7d']

/-- The items after the first, each behind a comma. -/
def moreItems : List Value → List Char
  | [] => []
  | v :: rest => ',' :: v.chars ++ moreItems rest

/-- The members after the first, each behind a comma. -/
def moreMembers : List (String × Value) → List Char
  | [] => []
  | (name, v) :: rest => ',' :: quote name ++ ':' :: v.chars ++ moreMembers rest

end

/-- The compact text of a value as a string. -/
def render (v : Value) : String := String.ofList v.chars

end Value

end Json

end SourceMarkers
