import SourceMarkers.Program.Run
import Std.Time

/-!
# Entry point

Runs the program on the real streams and the real file system. What the program
does is `Program.runOn`; what stands here are the single actions that it is made
of, and the loop that takes one turn after the other.

Octets of the input are taken one at a time, so that a request is answered as
soon as its line has ended.
-/

namespace SourceMarkers

namespace Terminal

/-- The number of a system error, which may come with a minus sign. -/
def errorNumber (code : UInt32) : Nat :=
  if code.toNat < 0x80000000 then code.toNat else (0 - code).toNat

/-- The reason of a failed action on a file. -/
def fileFault : IO.Error → FileFault
  | .noFileOrDirectory .. => .notFound
  | .alreadyExists .. => .alreadyThere
  | .inappropriateType _ code details =>
    match errorNumber code with
    | 20 => .notADirectory
    | 21 => .isADirectory
    | number => .other s!"{details} (os error {number})"
  | e => .other (toString e)

/-- Does something, and gives the reason when it fails. -/
def attempt {α : Type} (act : IO α) : IO (Except FileFault α) := do
  match ← act.toBaseIO with
  | .ok a => return .ok a
  | .error e => return .error (fileFault e)

/-! ## Files -/

/-- The octets at a path, or nothing when there is no such path. -/
def content (p : Path) : IO (Option (Except FileFault (List UInt8))) := do
  match ← attempt (IO.FS.readBinFile p.toStringLossy) with
  | .ok octets => return some (.ok octets.toList)
  | .error .notFound => return none
  | .error .notADirectory => return none
  | .error f => return some (.error f)

/-- Makes a directory with all above it. The empty path is where relative paths
    start, and is there already. -/
def createDirectories (p : Path) : IO (Except FileFault Unit) :=
  if p.octets.isEmpty then return .ok () else attempt (IO.FS.createDirAll p.toStringLossy)

/-- Puts octets into a file that was opened in the given way. -/
def writeTo (mode : IO.FS.Mode) (p : Path) (octets : List UInt8) : IO (Except FileFault Unit) :=
  attempt do
    let file ← IO.FS.Handle.mk p.toStringLossy mode
    file.write ⟨octets.toArray⟩

/-- The file system as a disk. -/
def disk : Disk IO := ⟨content, createDirectories, writeTo .write, writeTo .append⟩

/-! ## Streams -/

/-- The next line of a stream with its line end, or what is left of it. -/
partial def takeLine (input : IO.FS.Stream) (done : List UInt8) : IO (List UInt8) := do
  let octets ← input.read 1
  match octets.toList with
  | [] => return done.reverse
  | b :: _ => if b == newline then return (b :: done).reverse else takeLine input (b :: done)

/-- Reads a line of the input. -/
def read : IO (Except String (Option (List UInt8))) := do
  match ← attempt (do takeLine (← IO.getStdin) []) with
  | .error f => return .error f.message
  | .ok line => return .ok (if line.isEmpty then none else some line)

/-- Puts octets out, and gives the reason when they are refused. -/
def put (octets : List UInt8) : IO (Option String) := do
  let output ← IO.getStdout
  match ← attempt (do output.write ⟨octets.toArray⟩; output.flush) with
  | .error f => return some f.message
  | .ok () => return none

/-- Takes turns until serving is over. -/
partial def serve (tell : List Entry → IO Unit) (s : Session) (waiting : List Event) :
    IO (Session × Bool) := do
  match ← s.turnOn ⟨read, put, tell⟩ waiting with
  | .next s waiting => serve tell s waiting
  | .over s stop => return (s, stop.well)

/-! ## The world -/

/-- The time as it stands in the log. -/
def now : IO String := do
  let time ← Std.Time.Timestamp.now
  return (Std.Time.DateTime.ofTimestamp time .UTC).toISO8601String

/-- The machine that the program was started on. -/
def world : World IO := ⟨disk, put, fun text => IO.eprintln text, now, serve⟩

/-- The environment of the process. -/
def environment : IO Environment := do
  let path (name : String) : IO (Option Path) := do
    return (← IO.getEnv name).map Path.ofString
  return ⟨← path "XDG_DATA_HOME", ← path "HOME", ← IO.getEnv "RUST_LOG"⟩

end Terminal

end SourceMarkers

open SourceMarkers in
/-- The program. -/
def main (arguments : List String) : IO UInt32 := do
  return (← Program.runOn Terminal.world (← Terminal.environment) arguments).toUInt32
