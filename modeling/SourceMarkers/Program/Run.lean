import SourceMarkers.Program.Directories
import SourceMarkers.Program.LogFile
import SourceMarkers.Program.Options
import SourceMarkers.Session.Stream

/-!
# The program

A run of the program: what it puts out, how it exits, and what it leaves
behind.

The arguments come first, and wrong ones, or the wish for a text, leave the
files alone. Then the log is opened; when that fails nothing else is done. The
log is written as the work goes on: the entry of the start before the store is
looked at, those of loading before the first request, and so on.

All of this happens in a `World`, and stands here once for all of them. The
world of a machine that is known as a whole, `Machine.world`, makes a function
of the program.

## Main definitions

* `helpText`, `versionText`: The texts that can be asked for.
* `World`: What the program runs in.
* `LogTarget`: Where the log is written.
* `Program.Plan`: The places and settings of a run.
* `Program.serveOn`: Serving, from the first entry of the log to the last.
* `Program.runOn`: A whole run.
* `Machine`, `Machine.world`: Files and streams as a world.
* `Program.run`: A whole run on a machine.
-/

namespace SourceMarkers

/-- What is shown for the version. -/
def versionText : String := "session-markers 0.1.0\n"

/-- What is shown for help. -/
def helpText : String :=
  "Session-side registry of source diagnostic marker sets with persistence and client "
    ++ "notifications\n\n"
    ++ "Usage: session-markers [OPTIONS]\n\n"
    ++ "Options:\n"
    ++ "      --scratch-dir <DIR>      Session scratch directory holding the persisted markers\n"
    ++ "      --log-file <FILE>        Log file (defaults to the data directory)\n"
    ++ "      --log-level <LOG_LEVEL>  Log level used when RUST_LOG is not set "
    ++ "[default: info]\n"
    ++ "  -h, --help                   Print help\n"
    ++ "  -V, --version                Print version\n"

/-- What the program runs in. -/
structure World (m : Type → Type) where
  disk : Disk m
  /-- Puts octets out, and gives the reason when they are refused. -/
  put : List UInt8 → m (Option String)
  /-- Says what went wrong to whoever started the program. -/
  complain : String → m Unit
  /-- The time as it stands in the log. -/
  now : m String
  /-- Takes turns with a session and the events that wait, until serving is over.
      Gives the last session and whether it ended well. As nothing bounds the
      number of turns, each world has a loop of its own; what is done in a turn
      is always `Session.turnOn`. -/
  serve : (List Entry → m Unit) → Session → List Event → m (Session × Bool)

/-- Where the log is written, and how much of it. -/
structure LogTarget where
  path : Path
  verbosity : Verbosity

namespace LogTarget

variable {m : Type → Type} [Monad m]

/-- The octets of the entries that are shown, at a time. -/
def octets (l : LogTarget) (time : String) (entries : List Entry) : List UInt8 :=
  Utf8.encode ((entries.filter l.verbosity.shows).flatMap (Entry.line time))

/-- Makes the directory of the log and the log itself, unless something is in
    the way. -/
def openOn (l : LogTarget) (disk : Disk m) : m (Except FileFault Unit) := disk.extend l.path []

/-- Adds entries to the log. What cannot be written is lost. -/
def tellOn (l : LogTarget) (world : World m) (entries : List Entry) : m Unit := do
  let _ ← world.disk.append l.path (l.octets (← world.now) entries)

end LogTarget

namespace Program

/-- The entry made before the program serves. -/
def started (directory : Path) : Entry :=
  ⟨.info, s!"Starting session-markers server (scratch: {directory.quoted})"⟩

/-- The entry made after it has served. -/
def stopped : Entry := ⟨.info, "session-markers server stopped"⟩

/-- The places and settings of a run that serves. -/
structure Plan where
  scratch : Path
  shorthand : Shorthand
  log : LogTarget

/-- The plan that the environment and the options make. A home directory with
    an empty name is none. -/
def plan (e : Environment) (o : Options) : Plan :=
  let e := { e with home := e.home.filter fun p => !p.octets.isEmpty }
  ⟨o.scratchDirectory.getD e.scratchDirectory, ⟨e.home⟩,
    ⟨o.logFile.getD e.logFile, Verbosity.choose e.logLevel o.logLevel⟩⟩

section World

variable {m : Type → Type} [Monad m] (world : World m)

/-- Serves with the catalog in a directory. -/
def serveOn (p : Plan) : m Unit := do
  let tell := p.log.tellOn world
  let store := Store.inDirectory p.scratch
  tell [started p.scratch]
  let begun ← (Session.new p.shorthand).reloadOn world.disk store
  tell begun.log
  let (last, well) ← world.serve tell begun.session begun.events
  let ended ← last.shutdownOn world.disk store well
  tell (ended.log ++ [stopped])

/-- A whole run of the program. Gives its exit code. -/
def runOn (e : Environment) (arguments : List String) : m Nat :=
  match Invocation.ofArguments arguments with
  | .wrong => do
    world.complain "error: unusable arguments, see --help"
    return 2
  | .showHelp => do
    let _ ← world.put (Utf8.ofString helpText)
    return 0
  | .showVersion => do
    let _ ← world.put (Utf8.ofString versionText)
    return 0
  | .run o => do
    let p := plan e o
    match ← p.log.openOn world.disk with
    | .error f =>
      world.complain s!"Error: {f.message}"
      return 1
    | .ok () =>
      serveOn world p
      return 0

end World

end Program

/-! ## On a machine -/

/-- A machine: its files, what is to be read, and what was put out. -/
structure Machine where
  files : FileTree
  input : List UInt8
  output : List UInt8

namespace Machine

/-- Does something with the files. -/
def onFiles {α : Type} (act : StateM FileTree α) : StateM Machine α :=
  modifyGet fun w => ((act.run w.files).1, { w with files := (act.run w.files).2 })

/-- The files as a disk. -/
def disk : Disk (StateM Machine) where
  content p := onFiles (FileTree.disk.content p)
  createDirectories p := onFiles (FileTree.disk.createDirectories p)
  write p content := onFiles (FileTree.disk.write p content)
  append p more := onFiles (FileTree.disk.append p more)

/-- Serves all that is to be read, with an output that takes everything. -/
def serve (tell : List Entry → StateM Machine Unit) (s : Session) (waiting : List Event) :
    StateM Machine (Session × Bool) := do
  let w ← get
  let service := s.serveFrom none waiting w.input .ended
  set { w with input := [], output := w.output ++ service.output }
  tell service.log
  return (service.session, service.endedWell .ended)

/-- A machine as a world, at a time. Nobody is there to complain to. -/
def world (time : String) : World (StateM Machine) where
  disk := disk
  put octets := modifyGet fun w => (none, { w with output := w.output ++ octets })
  complain _ := pure ()
  now := pure time
  serve := serve

end Machine

/-- What comes of a run. -/
structure Exit where
  code : Nat
  output : List UInt8
  files : FileTree

namespace Program

/-- A whole run of the program on a machine with the given input and files. -/
def run (e : Environment) (arguments : List String) (input : List UInt8) (time : String)
    (t : FileTree) : Exit :=
  let (code, w) := (runOn (Machine.world time) e arguments).run ⟨t, input, []⟩
  ⟨code, w.output, w.files⟩

end Program

end SourceMarkers
