import SourceMarkers.Text.Utf8

/-!
# Faults in a JSON text

Why a text is no JSON text, and where reading stopped. The place is given as a
line, counted from one, and a column, the number of octets of that line up to
the place; so the place after a line end is column zero of the next line.

A reader sees only what is left of the text. It reports a `Stop`: the cause,
and how many octets lie after the place. `Fault.ofStop` turns this into a line
and a column once, when the whole text is at hand.

## Main definitions

* `Cause`: What went wrong.
* `Stop`: A cause with the octets left after it.
* `stop`: The stop some octets into the rest of the text.
* `Fault`: A cause with its line and column.
-/

namespace SourceMarkers

namespace Json

/-- What is wrong with a text. -/
inductive Cause where
  | endInValue
  | endInList
  | endInObject
  | endInString
  | expectedValue
  | expectedWord
  | expectedColon
  | expectedListEnd
  | expectedObjectEnd
  | keyNotString
  | trailingComma
  | trailingCharacters
  | invalidNumber
  | numberOutOfRange
  | invalidEscape
  | loneSurrogate
  | surrogateNotPaired
  | controlCharacter
  | tooDeep
deriving DecidableEq, Repr

/-- The message of a cause. -/
def Cause.message : Cause → String
  | .endInValue => "EOF while parsing a value"
  | .endInList => "EOF while parsing a list"
  | .endInObject => "EOF while parsing an object"
  | .endInString => "EOF while parsing a string"
  | .expectedValue => "expected value"
  | .expectedWord => "expected ident"
  | .expectedColon => "expected `:`"
  | .expectedListEnd => "expected `,` or `]`"
  | .expectedObjectEnd => "expected `,` or `\x7d`"
  | .keyNotString => "key must be a string"
  | .trailingComma => "trailing comma"
  | .trailingCharacters => "trailing characters"
  | .invalidNumber => "invalid number"
  | .numberOutOfRange => "number out of range"
  | .invalidEscape => "invalid escape"
  | .loneSurrogate => "lone leading surrogate in hex escape"
  | .surrogateNotPaired => "unexpected end of hex escape"
  | .controlCharacter => "control character (\\u0000-\\u001F) found while parsing a string"
  | .tooDeep => "recursion limit exceeded"

/-- Where reading stopped: the cause, and the octets that lie after the
    place. -/
structure Stop where
  cause : Cause
  left : Nat
deriving DecidableEq, Repr

/-- How many octets a text has. -/
def octetCount (cs : List Char) : Nat := (Utf8.encode cs).length

/-- The stop `ahead` octets into the rest of the text, or at its end where the
    rest is shorter. -/
def stop {α : Type} (cause : Cause) (ahead : Nat) (rest : List Char) : Except Stop α :=
  .error ⟨cause, octetCount rest - ahead⟩

/-- Why a text is no JSON text, and where. -/
structure Fault where
  cause : Cause
  line : Nat
  column : Nat
deriving DecidableEq, Repr

/-- The octet of a line end. -/
def lineEnd : UInt8 := 0x0A

/-- The place of a stop in the whole text. -/
def Fault.ofStop (text : List Char) (s : Stop) : Fault :=
  let before := (Utf8.encode text).take (octetCount text - s.left)
  ⟨s.cause, 1 + before.count lineEnd,
    (before.reverse.takeWhile fun b => b != lineEnd).length⟩

/-- The message of a fault. -/
def Fault.message (f : Fault) : String :=
  s!"{f.cause.message} at line {f.line} column {f.column}"

end Json

end SourceMarkers
