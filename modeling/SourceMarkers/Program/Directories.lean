import SourceMarkers.Files.Store

/-!
# Where the program keeps its files

The data directory of the program is inside the one that the environment
names, or inside the usual place below the home directory, or, with neither,
inside the current directory. The catalog is kept in a scratch directory and
the log in a file, both in the data directory unless other places are asked
for.

## Main definitions

* `Environment`: What is taken from the environment.
* `Environment.dataDirectory`, `Environment.scratchDirectory`,
  `Environment.logFile`: The places.
-/

namespace SourceMarkers

/-- What the program takes from its environment. -/
structure Environment where
  /-- The directory for data of all programs. -/
  dataHome : Option Path
  /-- The home directory. -/
  home : Option Path
  /-- The level of the log. -/
  logLevel : Option String

namespace Environment

/-- The directory for data, when it is text and not empty. -/
def usableDataHome (e : Environment) : Option Path :=
  e.dataHome.filter fun p => !p.octets.isEmpty && (Utf8.decode p.octets).isOk

/-- The data directory of the program. -/
def dataDirectory (e : Environment) : Path :=
  let base :=
    match e.usableDataHome, e.home with
    | some p, _ => p
    | none, some home => home.join (.ofString ".local/share")
    | none, none => .ofString "."
  base.join (.ofString "session-markers")

/-- The directory in which the catalog is kept. -/
def scratchDirectory (e : Environment) : Path := e.dataDirectory.join (.ofString "scratch")

/-- The file of the log. -/
def logFile (e : Environment) : Path :=
  e.dataDirectory.join (.ofString "session-markers.log")

end Environment

end SourceMarkers
