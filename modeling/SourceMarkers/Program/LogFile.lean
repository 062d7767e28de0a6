import SourceMarkers.Json.Printer
import SourceMarkers.Log

/-!
# The log file

What of the log is written down, and how. A level shows itself and everything
more serious. The level of the environment wins over the one that was asked
for, and without either it is `info`. A name that is no level shows nothing.

Each entry is one line: an object with the time, the level and the message.

## Main definitions

* `Verbosity`: How much is shown.
* `Verbosity.ofName`: The verbosity of a level by its name.
* `Entry.line`: An entry as it is written.
-/

namespace SourceMarkers

/-- How much of the log is shown: the entries of this rank and below. -/
structure Verbosity where
  rank : Nat
deriving DecidableEq, Repr

namespace Verbosity

/-- The verbosity with the name of a level, in letters of either case. -/
def ofName (name : String) : Verbosity :=
  let name := name.map Char.toLower
  if name = "" ∨ name = "error" then ⟨Level.error.rank⟩
  else if name = "warn" then ⟨Level.warn.rank⟩
  else if name = "info" then ⟨Level.info.rank⟩
  else if name = "debug" ∨ name = "trace" then ⟨Level.debug.rank⟩
  else ⟨0⟩

/-- The verbosity that the environment and the arguments ask for. -/
def choose (environment argument : Option String) : Verbosity :=
  ofName (environment.getD (argument.getD "info"))

/-- The entry is shown. -/
def shows (v : Verbosity) (e : Entry) : Bool := e.level.rank ≤ v.rank

end Verbosity

/-- An entry as it is written at a time. -/
def Entry.line (time : String) (e : Entry) : List Char :=
  Json.Value.chars (.object [
    ("timestamp", .string time),
    ("level", .string e.level.label),
    ("fields", .object [("message", .string e.message)]),
    ("target", .string "session-markers")]) ++ ['\n']

end SourceMarkers
