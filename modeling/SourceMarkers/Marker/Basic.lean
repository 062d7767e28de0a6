import SourceMarkers.Path.Basic

/-!
# Markers and marker sets

A marker is one finding of a tool about a place in a source file. A marker set
is what one run of a tool found: a named list of markers in the order in which
they are shown, with an optional base path that displays shorten paths by.

Kinds and hints go over the wire as small whole numbers. Lines and columns are
32-bit numbers and are never checked against a file, so zero and negative ones
are kept.

## Main definitions

* `MarkerKind`: What a finding is.
* `AutoSelect`: Which marker a display should select after a change.
* `Marker`, `MarkerSet`: The findings.
-/

namespace SourceMarkers

/-- What a finding is. The kind is stored and passed on, and never
    interpreted. -/
inductive MarkerKind where
  | error
  | warning
  | box
  | info
deriving DecidableEq, Repr

namespace MarkerKind

/-- The number of a kind on the wire. -/
def code : MarkerKind → Int
  | .error => 0
  | .warning => 1
  | .box => 2
  | .info => 3

/-- The kind with a number on the wire. -/
def ofCode? (n : Int) : Option MarkerKind :=
  if n = 0 then some .error
  else if n = 1 then some .warning
  else if n = 2 then some .box
  else if n = 3 then some .info
  else none

end MarkerKind

/-- Which marker a display should select after a change. -/
inductive AutoSelect where
  | none
  | first
  | specific
deriving DecidableEq, Repr

namespace AutoSelect

/-- The number of a choice on the wire. -/
def code : AutoSelect → Int
  | .none => 0
  | .first => 1
  | .specific => 2

/-- The choice with a number on the wire. -/
def ofCode? (n : Int) : Option AutoSelect :=
  if n = 0 then some .none
  else if n = 1 then some .first
  else if n = 2 then some .specific
  else Option.none

end AutoSelect

/-- One finding about a place in a file. -/
structure Marker where
  kind : MarkerKind
  path : Path
  line : Int32
  column : Int32
  message : String
  /-- The marker also belongs into the display's list of errors. -/
  showInErrorList : Bool
deriving DecidableEq

/-- What one run of a tool found. -/
structure MarkerSet where
  name : String
  basePath : Option Path
  markers : List Marker
deriving DecidableEq

end SourceMarkers
