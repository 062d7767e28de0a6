import SourceMarkers.Text.Utf8
import SourceMarkers.Text.Quoted

/-!
# File paths

A path is any sequence of octets, kept as it was given. What it means is read
off its components: the pieces between slashes, without the empty ones and
without single dots, except a dot that is the very first piece of a relative
path. A leading slash, or several, is one root component, and two dots are a
component like any other, as only a file system can say what they stand for.

Two texts with the same components are the same path. So `Path` has two
equalities: `=` compares octets and `Same` compares components.

A path splits into a lead (the root, a first dot, or nothing) and a body, the
pieces after it. Trimming a body drops the pieces without meaning at its ends
and leaves the ones inside, so that a rest of a path keeps its spelling.

## Main definitions

* `Path`: A path.
* `Component`, `Path.components`: What a path means.
* `Path.Same`: Equality of components.
* `Path.join`: A path read from inside of another.
* `Path.parent?`: The path without its last component.
* `Path.stripPrefix?`: The rest of a path below another.

## Theorems

* `Path.ofPieces_pieces`: Cutting a path at its slashes loses nothing.
-/

namespace SourceMarkers

/-- A path, as the octets it is written with. -/
structure Path where
  octets : List UInt8
deriving DecidableEq, Repr

/-- A part of a path between slashes. -/
abbrev PathPiece := List UInt8

namespace Path

/-- The octet between the pieces of a path. -/
def slash : UInt8 := 0x2F

/-- The octet of a dot. -/
def dot : UInt8 := 0x2E

/-- The path of a string. -/
def ofString (s : String) : Path := ⟨Utf8.ofString s⟩

/-- The text of a path, with the replacement character for what is no text. -/
def toStringLossy (p : Path) : String := Utf8.toStringLossy p.octets

/-- The path between quotes, as messages show it. -/
def quoted (p : Path) : String := Text.quoteOctets p.octets

/-- The path starts at the root. -/
def isAbsolute (p : Path) : Bool := p.octets.head? == some slash

/-- The pieces between slashes, at least one. -/
def pieces (p : Path) : List PathPiece := p.octets.splitOn slash

/-- The path with the given pieces. -/
def ofPieces (ps : List PathPiece) : Path := ⟨[slash].intercalate ps⟩

/-- Cutting a path at its slashes loses nothing. -/
theorem ofPieces_pieces (p : Path) : ofPieces p.pieces = p := by
  rw [ofPieces, pieces, List.intercalate_splitOn]

theorem pieces_ne_nil (p : Path) : p.pieces ≠ [] := List.splitOn_ne_nil slash p.octets

/-- What a path consists of. -/
inductive Component where
  /-- The leading slash. -/
  | root
  /-- A leading dot. -/
  | here
  /-- Two dots. -/
  | up
  | name (octets : PathPiece)
deriving DecidableEq, Repr

/-- Inside of a path, an empty piece and a dot mean nothing. -/
def isIdle (piece : PathPiece) : Bool := piece == [] || piece == [dot]

/-- The component of a piece inside of a path. -/
def component? (piece : PathPiece) : Option Component :=
  if isIdle piece then none
  else if piece = [dot, dot] then some .up
  else some (.name piece)

/-- What stands before the body of a path. -/
inductive Lead where
  | root
  | here
  | nothing
deriving DecidableEq, Repr

/-- The lead of a path. -/
def lead (p : Path) : Lead :=
  if p.isAbsolute then .root
  else if p.pieces.head? = some [dot] then .here
  else .nothing

/-- The pieces after the lead. -/
def body (p : Path) : List PathPiece :=
  match p.lead with
  | .nothing => p.pieces
  | _ => p.pieces.tail

/-- The component of a lead. -/
def Lead.components : Lead → List Component
  | .root => [.root]
  | .here => [.here]
  | .nothing => []

/-- The components of a path. -/
def components (p : Path) : List Component :=
  p.lead.components ++ p.body.filterMap component?

/-- Two paths with the same components. -/
def Same (p q : Path) : Prop := p.components = q.components

instance (p q : Path) : Decidable (Same p q) :=
  inferInstanceAs (Decidable (p.components = q.components))

/-- The pieces without the idle ones at the end. -/
def trimEnd (ps : List PathPiece) : List PathPiece :=
  (ps.reverse.dropWhile isIdle).reverse

/-- The pieces without the idle ones at both ends. -/
def trim (ps : List PathPiece) : List PathPiece := trimEnd (ps.dropWhile isIdle)

/-- The path with a lead and a body. -/
def ofLead (l : Lead) (ps : List PathPiece) : Path :=
  match l with
  | .root => ofPieces ([] :: if ps.isEmpty then [[]] else ps)
  | .here => ofPieces ([dot] :: ps)
  | .nothing => ofPieces ps

/-- The path `q` read from inside of `p`: `q` itself when it starts at the
    root, and otherwise both with one slash between them. -/
def join (p q : Path) : Path :=
  if q.isAbsolute then q
  else if p.octets = [] ∨ p.octets.getLast? = some slash then ⟨p.octets ++ q.octets⟩
  else ⟨p.octets ++ slash :: q.octets⟩

/-- The path without its last component; the root and the empty path have
    none to lose. -/
def parent? (p : Path) : Option Path :=
  match (trimEnd p.body).reverse with
  | _ :: rest => some (ofLead p.lead (trimEnd rest.reverse))
  | [] =>
    match p.lead with
    | .here => some ⟨[]⟩
    | _ => none

/-- The pieces that are left when the given components are taken off the
    front. -/
def dropComponents : List Component → List PathPiece → Option (List PathPiece)
  | [], ps => some ps
  | _ :: _, [] => none
  | c :: cs, p :: ps =>
    match component? p with
    | none => dropComponents (c :: cs) ps
    | some d => if d = c then dropComponents cs ps else none

/-- What is left of `p` behind `base`, when `p` starts with the components of
    `base`. Only the ends of the rest are trimmed; behind a base without
    components that is the end alone. -/
def stripPrefix? (p base : Path) : Option Path :=
  if base.components = [] then some (ofLead p.lead (trimEnd p.body))
  else if p.lead = base.lead then
    (dropComponents (base.body.filterMap component?) p.body).map fun rest =>
      ofPieces (trim rest)
  else none

end Path

end SourceMarkers
