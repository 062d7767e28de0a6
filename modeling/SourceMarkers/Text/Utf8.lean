/-!
# UTF-8

Reading octets as characters and writing characters as octets.

Reading cuts the octets into pieces. A piece is one character, or the longest
run of octets that begins like a character and then goes wrong, or what is
left when the text ends inside a character. The strict reading refuses the
first piece that is no character and says where it stands; the lossy reading
puts the replacement character for each such piece. Both are folds over the
same pieces, so they agree on every text that is valid.

Which second octets may follow a lead octet is not tabulated. The two octets
fix the top bits of the scalar value, and the test is that some scalar value
of that length has those top bits: at least the least value that needs the
length, no surrogate, and no value above `0x10FFFF`.

## Main definitions

* `encodeChar`, `encode`: The octets of a character and of a text.
* `Piece`: One step of reading.
* `pieces`: The pieces of an octet sequence.
* `Fault`: Why a sequence is no UTF-8 text, and where.
* `decode`: The strict reading.
* `decodeLossy`: The reading that replaces.
-/

namespace SourceMarkers

namespace Utf8

/-- The octets of one character: one to four, the lead octet telling how many
    follow. -/
def encodeChar (c : Char) : List UInt8 :=
  let n := c.toNat
  if n < 0x80 then [UInt8.ofNat n]
  else if n < 0x800 then
    [UInt8.ofNat (0xC0 + n / 64), UInt8.ofNat (0x80 + n % 64)]
  else if n < 0x10000 then
    [UInt8.ofNat (0xE0 + n / 4096), UInt8.ofNat (0x80 + n / 64 % 64),
      UInt8.ofNat (0x80 + n % 64)]
  else
    [UInt8.ofNat (0xF0 + n / 262144), UInt8.ofNat (0x80 + n / 4096 % 64),
      UInt8.ofNat (0x80 + n / 64 % 64), UInt8.ofNat (0x80 + n % 64)]

/-- The octets of a text. -/
def encode (cs : List Char) : List UInt8 := cs.flatMap encodeChar

/-- One step of reading. -/
inductive Piece where
  /-- A whole character. -/
  | char (c : Char)
  /-- The longest run that starts like a character and cannot become one. -/
  | invalid (octets : List UInt8)
  /-- The text ended inside a character that was good so far. -/
  | cut (octets : List UInt8)
deriving DecidableEq, Repr

/-- Six payload bits: the octet is `0x80` to `0xBF`. -/
def isTail (b : UInt8) : Bool := b.toNat / 64 == 2

/-- The payload of a tail octet. -/
def payload (b : UInt8) : Nat := b.toNat % 64

/-- Some scalar value of three octets has the top bits `top`, its value over
    64: it is not below `0x800`, and no surrogate. -/
def startsThree (top : Nat) : Bool :=
  32 ≤ top && !(0x360 ≤ top && top ≤ 0x37F)

/-- Some scalar value of four octets has the top bits `top`, its value over
    4096: it is at least `0x10000` and at most `0x10FFFF`. -/
def startsFour (top : Nat) : Bool :=
  16 ≤ top && top ≤ 0x10F

/-- The piece that starts with octet `b`. -/
def firstPiece (b : UInt8) (rest : List UInt8) : Piece :=
  let n := b.toNat
  if n < 0x80 then .char (Char.ofNat n)
  else if n < 0xC2 then .invalid [b]
  else if n < 0xE0 then
    match rest with
    | [] => .cut [b]
    | c :: _ =>
      if isTail c then .char (Char.ofNat ((n - 0xC0) * 64 + payload c))
      else .invalid [b]
  else if n < 0xF0 then
    match rest with
    | [] => .cut [b]
    | c :: rest =>
      let top := (n - 0xE0) * 64 + payload c
      if isTail c && startsThree top then
        match rest with
        | [] => .cut [b, c]
        | d :: _ =>
          if isTail d then .char (Char.ofNat (top * 64 + payload d))
          else .invalid [b, c]
      else .invalid [b]
  else if n < 0xF5 then
    match rest with
    | [] => .cut [b]
    | c :: rest =>
      let top := (n - 0xF0) * 64 + payload c
      if isTail c && startsFour top then
        match rest with
        | [] => .cut [b, c]
        | d :: rest =>
          if isTail d then
            match rest with
            | [] => .cut [b, c, d]
            | e :: _ =>
              if isTail e then
                .char (Char.ofNat ((top * 64 + payload d) * 64 + payload e))
              else .invalid [b, c, d]
          else .invalid [b, c]
      else .invalid [b]
  else .invalid [b]

/-- How many octets a piece stands for. -/
def Piece.width : Piece → Nat
  | .char c => (encodeChar c).length
  | .invalid octets => octets.length
  | .cut octets => octets.length

/-- The pieces of the octets, after `skip` octets that belong to the last
    piece already read. Read pieces come first in `done`, latest first. -/
def piecesFrom : Nat → List Piece → List UInt8 → List Piece
  | _, done, [] => done.reverse
  | skip + 1, done, _ :: rest => piecesFrom skip done rest
  | 0, done, b :: rest =>
    let piece := firstPiece b rest
    piecesFrom (piece.width - 1) (piece :: done) rest

/-- The pieces of an octet sequence, in order. -/
def pieces (octets : List UInt8) : List Piece := piecesFrom 0 [] octets

/-- Why a sequence is no UTF-8 text. -/
inductive Fault where
  /-- From `index`, `length` octets that begin no character. -/
  | invalid (index length : Nat)
  /-- The last character, from `index`, is not complete. -/
  | incomplete (index : Nat)
deriving DecidableEq, Repr

/-- The message of a fault. -/
def Fault.message : Fault → String
  | .invalid index length =>
    s!"invalid utf-8 sequence of {length} bytes from index {index}"
  | .incomplete index => s!"incomplete utf-8 byte sequence from index {index}"

/-- The characters of the pieces from octet `index` on, after those in `done`
    (latest first), or the first fault. -/
def collect : Nat → List Char → List Piece → Except Fault (List Char)
  | _, done, [] => .ok done.reverse
  | index, done, .char c :: rest =>
    collect (index + (encodeChar c).length) (c :: done) rest
  | index, _, .invalid octets :: _ => .error (.invalid index octets.length)
  | index, _, .cut _ :: _ => .error (.incomplete index)

/-- The characters of a UTF-8 text, or why it is none. -/
def decode (octets : List UInt8) : Except Fault (List Char) :=
  collect 0 [] (pieces octets)

/-- The character of a piece, or the replacement character. -/
def Piece.lossy : Piece → Char
  | .char c => c
  | .invalid _ => '\uFFFD'
  | .cut _ => '\uFFFD'

/-- The characters of any octets, with the replacement character for each
    piece that is no character. -/
def decodeLossy (octets : List UInt8) : List Char := (pieces octets).map Piece.lossy

/-- The octets of a string. -/
def ofString (s : String) : List UInt8 := encode s.toList

/-- The string of a UTF-8 text, if it is one. -/
def toString? (octets : List UInt8) : Option String :=
  (decode octets).toOption.map String.ofList

/-- The string of any octets, with replacements. -/
def toStringLossy (octets : List UInt8) : String := String.ofList (decodeLossy octets)

end Utf8

end SourceMarkers
