import SourceMarkers.Json.Value
import SourceMarkers.Json.Fault
import SourceMarkers.Decimal.Scaled

/-!
# Reading JSON

A reader takes what is left of the text and gives a value and what is left
after it, or the place where it stopped.

The nesting limit is also what the recursion runs on: `value bound d` reads a
value with at most `d` brackets open inside each other, and hands
`value bound (d - 1)` to the readers of lists and objects. Those go around once
for each item. An item takes at least one character, so the length of the
whole text is a `bound` on how often, and it is counted only once.

Of a number, first the digits are cut out, and only then its value is made.
A number is whole when it is written without a point and an exponent, fits 64
bits with or without a sign, and is no negative zero; every other number is a
double.

## Main definitions

* `blank`: The characters between the parts of a text.
* `word`, `stringBody`, `number`: Readers without nesting.
* `itemsFrom`, `membersFrom`: The insides of lists and objects.
* `value`: The reader of a value.
* `parse`: The value of a whole text.
-/

namespace SourceMarkers

namespace Json

/-- A reader: from the rest of the text to a result and what is left. -/
abbrev Scan (α : Type) := List Char → Except Stop (α × List Char)

/-- The characters between the parts of a text. -/
def isBlank (c : Char) : Bool := c = ' ' || c = '\t' || c = '\n' || c = '\r'

/-- The text from its first character that is not blank. -/
def skipBlank (cs : List Char) : List Char := cs.dropWhile isBlank

/-- Reads the rest of one of the words `null`, `true` and `false`. -/
def word : List Char → List Char → Except Stop (List Char)
  | [], cs => .ok cs
  | _ :: _, [] => stop .endInValue 0 []
  | e :: es, c :: cs => if c = e then word es cs else stop .expectedWord 1 (c :: cs)

/-! ## Strings -/

/-- The value of a digit to base 16. -/
def hexValue? (c : Char) : Option Nat :=
  if '0' ≤ c ∧ c ≤ '9' then some (c.toNat - '0'.toNat)
  else if 'a' ≤ c ∧ c ≤ 'f' then some (c.toNat - 'a'.toNat + 10)
  else if 'A' ≤ c ∧ c ≤ 'F' then some (c.toNat - 'A'.toNat + 10)
  else none

/-- The value of the four digits at the start of the text. Four octets are
    taken whether they are digits or not. -/
def fourHex (cs : List Char) : Except Stop Nat :=
  match cs.take 4 |>.mapM hexValue? with
  | some [a, b, c, d] => .ok (((a * 16 + b) * 16 + c) * 16 + d)
  | _ =>
    if octetCount cs < 4 then stop .endInString 4 cs else stop .invalidEscape 4 cs

/-- A first half of a pair that stands for one character. -/
def isHighHalf (n : Nat) : Bool := 0xD800 ≤ n && n ≤ 0xDBFF

/-- A second half of such a pair. -/
def isLowHalf (n : Nat) : Bool := 0xDC00 ≤ n && n ≤ 0xDFFF

/-- The character of a pair of halves. -/
def ofHalves (high low : Nat) : Char :=
  Char.ofNat (0x10000 + (high - 0xD800) * 0x400 + (low - 0xDC00))

/-- The second half of a pair, with its own escape in front. -/
def secondHalf (high : Nat) : List Char → Except Stop Char
  | [] => stop .endInString 0 []
  | '\\' :: [] => stop .endInString 0 []
  | '\\' :: 'u' :: cs => do
    let low ← fourHex cs
    if isLowHalf low then .ok (ofHalves high low) else stop .loneSurrogate 4 cs
  | '\\' :: cs => stop .surrogateNotPaired 1 cs
  | cs => stop .surrogateNotPaired 1 cs

/-- The character of an escape by its number, and how many characters were
    taken. -/
def numberedEscape (cs : List Char) : Except Stop (Char × Nat) := do
  let n ← fourHex cs
  if isLowHalf n then stop .loneSurrogate 4 cs
  else if isHighHalf n then
    let c ← secondHalf n (cs.drop 4)
    .ok (c, 10)
  else .ok (Char.ofNat n, 4)

/-- The character of an escape, after its backslash, and how many characters
    were taken. -/
def escape : List Char → Except Stop (Char × Nat)
  | [] => stop .endInString 0 []
  | c :: cs =>
    if c = '"' then .ok ('"', 1)
    else if c = '\\' then .ok ('\\', 1)
    else if c = '/' then .ok ('/', 1)
    else if c = 'b' then .ok ('\x08', 1)
    else if c = 'f' then .ok ('\x0c', 1)
    else if c = 'n' then .ok ('\n', 1)
    else if c = 'r' then .ok ('\r', 1)
    else if c = 't' then .ok ('\t', 1)
    else if c = 'u' then do
      let (c, taken) ← numberedEscape cs
      .ok (c, taken + 1)
    else stop .invalidEscape 1 (c :: cs)

/-- The rest of a string up to its closing quote, after `skip` characters that
    belong to the last escape. What was read stands in `done`, latest first. -/
def stringBody : Nat → List Char → Scan String
  | _, _, [] => stop .endInString 0 []
  | skip + 1, done, _ :: cs => stringBody skip done cs
  | 0, done, c :: cs =>
    if c = '"' then .ok (String.ofList done.reverse, cs)
    else if c = '\\' then
      match escape cs with
      | .ok (d, taken) => stringBody taken (d :: done) cs
      | .error s => .error s
    else if c.toNat < 0x20 then stop .controlCharacter 1 (c :: cs)
    else stringBody 0 (c :: done) cs

/-! ## Numbers -/

/-- The value of a digit. -/
def digitValue (c : Char) : Nat := c.toNat - '0'.toNat

/-- The digits at the start of the text, and what is left. -/
def digits (cs : List Char) : List Nat × List Char :=
  ((cs.takeWhile Char.isDigit).map digitValue, cs.dropWhile Char.isDigit)

/-- The number that digits stand for. -/
def ofDigits (ds : List Nat) : Nat := ds.foldl (fun n d => n * 10 + d) 0

/-- The digits before the point: one zero, or digits that start with another
    one. -/
def wholePart : Scan (List Nat)
  | [] => stop .endInValue 0 []
  | c :: cs =>
    if c = '0' then
      match cs with
      | d :: _ => if d.isDigit then stop .invalidNumber 1 cs else .ok ([0], cs)
      | [] => .ok ([0], cs)
    else if c.isDigit then .ok (digits (c :: cs))
    else stop .invalidNumber 1 (c :: cs)

/-- The digits after the point, if there is a point. -/
def fractionPart : Scan (Option (List Nat))
  | '.' :: cs =>
    match digits cs with
    | ([], []) => stop .endInValue 1 []
    | ([], c :: rest) => stop .invalidNumber 1 (c :: rest)
    | (ds, rest) => .ok (some ds, rest)
  | cs => .ok (none, cs)

/-- The sign of an exponent. -/
def exponentSign : List Char → Bool × List Char
  | '+' :: cs => (false, cs)
  | '-' :: cs => (true, cs)
  | cs => (false, cs)

/-- The sign and the digits of the exponent, if there is one. -/
def exponentPart : Scan (Option (Bool × List Nat))
  | [] => .ok (none, [])
  | c :: cs =>
    if c = 'e' ∨ c = 'E' then
      let (negative, cs) := exponentSign cs
      match cs with
      | [] => stop .endInValue 0 []
      | d :: _ =>
        if d.isDigit then
          let (ds, rest) := digits cs
          .ok (some (negative, ds), rest)
        else stop .invalidNumber 1 cs
    else .ok (none, c :: cs)

/-- How many digits of an exponent are left when it has grown past 31 bits, or
    none when it never does. -/
def afterOverflow : Nat → List Nat → Nat
  | _, [] => 0
  | n, d :: ds => if n * 10 + d < 0x80000000 then afterOverflow (n * 10 + d) ds else ds.length

/-- A whole number, if it is to be kept whole. -/
def keepWhole? (negative : Bool) (n : Nat) : Option Int :=
  if negative then if 0 < n ∧ n ≤ 0x8000000000000000 then some (-(n : Int)) else none
  else if n < 0x10000000000000000 then some n else none

/-- A number after its sign. A double that is too large is reported behind the
    number, but an exponent past 31 bits at the digit that takes it there. -/
def number (negative : Bool) : Scan Number := fun cs => do
  let (whole, cs) ← wholePart cs
  let (fraction, cs) ← fractionPart cs
  let (exponent, cs) ← exponentPart cs
  let kept? :=
    if fraction.isNone && exponent.isNone then keepWhole? negative (ofDigits whole) else none
  match kept? with
  | some n => .ok (.whole n, cs)
  | none =>
    let (down, power) := exponent.getD (false, [])
    let scale : Int := if down then -(ofDigits power : Int) else ofDigits power
    match Decimal.units? ⟨whole, fraction.getD [], scale⟩ with
    | some units => .ok (.double ⟨negative, units⟩, cs)
    | none => .error ⟨.numberOutOfRange, octetCount cs + afterOverflow 0 power⟩

/-! ## Values -/

/-- The items of a list from the start of one of them to the closing bracket.
    What was read stands in `done`, latest first. -/
def itemsFrom (item : Scan Value) : Nat → List Value → Scan (List Value)
  | 0, _, cs => stop .endInList 1 cs
  | bound + 1, done, cs => do
    let (v, cs) ← item cs
    match skipBlank cs with
    | [] => stop .endInList 1 []
    | c :: cs =>
      if c = ']' then .ok ((v :: done).reverse, cs)
      else if c = ',' then
        match skipBlank cs with
        | [] => stop .endInValue 1 []
        | d :: cs =>
          if d = ']' then stop .trailingComma 1 (d :: cs)
          else itemsFrom item bound (v :: done) (d :: cs)
      else stop .expectedListEnd 1 (c :: cs)

/-- The items of a list after its opening bracket. -/
def items (bound : Nat) (item : Scan Value) : Scan (List Value) := fun cs =>
  match skipBlank cs with
  | [] => stop .endInList 1 []
  | c :: cs => if c = ']' then .ok ([], cs) else itemsFrom item bound [] (c :: cs)

/-- A member from behind the opening quote of its name. -/
def member (item : Scan Value) : Scan (String × Value) := fun cs => do
  let (name, cs) ← stringBody 0 [] cs
  match skipBlank cs with
  | [] => stop .endInObject 1 []
  | c :: cs =>
    if c = ':' then do
      let (v, cs) ← item cs
      .ok ((name, v), cs)
    else stop .expectedColon 1 (c :: cs)

/-- The members of an object from behind the opening quote of a name to the
    closing brace. What was read stands in `done`, latest first. -/
def membersFrom (item : Scan Value) :
    Nat → List (String × Value) → Scan (List (String × Value))
  | 0, _, cs => stop .endInObject 1 cs
  | bound + 1, done, cs => do
    let (m, cs) ← member item cs
    match skipBlank cs with
    | [] => stop .endInObject 1 []
    | c :: cs =>
      if c = '\x7d' then .ok ((m :: done).reverse, cs)
      else if c = ',' then
        match skipBlank cs with
        | [] => stop .endInValue 1 []
        | d :: cs =>
          if d = '"' then membersFrom item bound (m :: done) cs
          else if d = '\x7d' then stop .trailingComma 1 (d :: cs)
          else stop .keyNotString 1 (d :: cs)
      else stop .expectedObjectEnd 1 (c :: cs)

/-- The members of an object after its opening brace. -/
def members (bound : Nat) (item : Scan Value) : Scan (List (String × Value)) := fun cs =>
  match skipBlank cs with
  | [] => stop .endInObject 1 []
  | c :: cs =>
    if c = '\x7d' then .ok ([], cs)
    else if c = '"' then membersFrom item bound [] cs
    else stop .keyNotString 1 (c :: cs)

/-- A value, given the reader for what is inside of brackets, or none when no
    more brackets may open. -/
def valueWith (bound : Nat) (inner : Option (Scan Value)) : Scan Value := fun cs =>
  match skipBlank cs with
  | [] => stop .endInValue 1 []
  | c :: cs =>
    if c = 'n' then do
      let cs ← word ['u', 'l', 'l'] cs
      .ok (.null, cs)
    else if c = 't' then do
      let cs ← word ['r', 'u', 'e'] cs
      .ok (.bool true, cs)
    else if c = 'f' then do
      let cs ← word ['a', 'l', 's', 'e'] cs
      .ok (.bool false, cs)
    else if c = '-' then do
      let (n, cs) ← number true cs
      .ok (.number n, cs)
    else if c.isDigit then do
      let (n, cs) ← number false (c :: cs)
      .ok (.number n, cs)
    else if c = '"' then do
      let (s, cs) ← stringBody 0 [] cs
      .ok (.string s, cs)
    else if c = '[' then
      match inner with
      | none => stop .tooDeep 1 (c :: cs)
      | some item => do
        let (vs, cs) ← items bound item cs
        .ok (.array vs, cs)
    else if c = '\x7b' then
      match inner with
      | none => stop .tooDeep 1 (c :: cs)
      | some item => do
        let (ms, cs) ← members bound item cs
        .ok (Value.ofMembers ms, cs)
    else stop .expectedValue 1 (c :: cs)

/-- A value with at most `depth` brackets open inside each other. -/
def value (bound : Nat) : Nat → Scan Value
  | 0 => valueWith bound none
  | depth + 1 => valueWith bound (some (value bound depth))

/-- How many brackets may be open inside each other. -/
def depthLimit : Nat := 127

/-- The value of a whole text: a value with nothing but blanks around it. -/
def wholeText (cs : List Char) : Except Stop Value := do
  let (v, rest) ← value cs.length depthLimit cs
  match skipBlank rest with
  | [] => .ok v
  | c :: cs => stop .trailingCharacters 1 (c :: cs)

/-- The value of a JSON text given as characters. -/
def parseChars (cs : List Char) : Except Fault Value :=
  match wholeText cs with
  | .ok v => .ok v
  | .error s => .error (Fault.ofStop cs s)

/-- The value of a JSON text. -/
def parse (text : String) : Except Fault Value := parseChars text.toList

end Json

end SourceMarkers
