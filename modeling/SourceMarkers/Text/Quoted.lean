import SourceMarkers.Text.Utf8
import SourceMarkers.Text.Unshown

/-!
# Quoted text

How text and paths stand in messages: between double quotes, with a backslash
before a quote mark and before a backslash, short forms for the line end, the
return, the tab and the null character, and every other character that is not
shown written by its number. An apostrophe needs no escape between double
quotes and gets none.

Octets that are no text, which a path may hold, are written as `\xFF` each.

## Main definitions

* `escapeChar`: The written form of one character.
* `quote`: Text between quotes.
* `quoteOctets`: Octets between quotes.
-/

namespace SourceMarkers

namespace Text

/-- The digits of a number to base 16, lower case. -/
def hexDigits (n : Nat) : List Char := Nat.toDigits 16 n

/-- The written form of one character between quotes. -/
def escapeChar (c : Char) : List Char :=
  if c = '"' then ['\\', '"']
  else if c = '\\' then ['\\', '\\']
  else if c = '\n' then ['\\', 'n']
  else if c = '\r' then ['\\', 'r']
  else if c = '\t' then ['\\', 't']
  else if c = '\x00' then ['\\', '0']
  else if isUnshown c then ['\\', 'u', '\x7b'] ++ hexDigits c.toNat ++ ['\x7d']
  else [c]

/-- Text between quotes. -/
def quote (s : String) : String :=
  String.ofList ('"' :: s.toList.flatMap escapeChar ++ ['"'])

/-- The written form of an octet that is no text. -/
def escapeOctet (b : UInt8) : List Char :=
  ['\\', 'x'] ++ (hexDigits (b.toNat / 16) ++ hexDigits (b.toNat % 16)).map Char.toUpper

/-- The written form of one piece of a path. -/
def escapePiece : Utf8.Piece → List Char
  | .char c => escapeChar c
  | .invalid octets => octets.flatMap escapeOctet
  | .cut octets => octets.flatMap escapeOctet

/-- Octets between quotes: what is text is quoted as text. -/
def quoteOctets (octets : List UInt8) : String :=
  String.ofList ('"' :: (Utf8.pieces octets).flatMap escapePiece ++ ['"'])

end Text

end SourceMarkers
