import SourceMarkers.Files.Tree

/-!
# What is done with files

The program looks at files, makes directories, and writes. It does all of this
through a `Disk`, in whatever monad the disk works. So loading, saving and the
log are written down once: on a tree of files they are functions, of which
things can be proved, and on the file system of a machine they are actions.

## Main definitions

* `Disk`: What can be done with files.
* `Disk.makeParent`, `Disk.reach`: Making the directory of a file.
* `Disk.replace`, `Disk.extend`: Writing a file of the program.
* `FileTree.disk`: A tree of files as a disk.
-/

namespace SourceMarkers

/-- A computation on a state that goes on with what it gave runs both one after
    the other. -/
theorem run_bind {σ α β : Type} (x : StateM σ α) (f : α → StateM σ β) (s : σ) :
    (x >>= f).run s = (f (x.run s).1).run (x.run s).2 := rfl

/-- What can be done with files. Whatever fails gives its reason. -/
structure Disk (m : Type → Type) where
  /-- The octets at a path, or nothing when there is no such path. -/
  content : Path → m (Option (Except FileFault (List UInt8)))
  /-- Makes a directory with all above it that are missing. -/
  createDirectories : Path → m (Except FileFault Unit)
  /-- Puts octets in place of those of a file, which is made if need be. -/
  write : Path → List UInt8 → m (Except FileFault Unit)
  /-- Puts octets behind those of a file, which is made if need be. -/
  append : Path → List UInt8 → m (Except FileFault Unit)

namespace Disk

variable {m : Type → Type} [Monad m] (disk : Disk m)

/-- Makes the directory that a path is in. -/
def makeParent (p : Path) : m (Except FileFault Unit) :=
  match p.parent? with
  | none => pure (.ok ())
  | some directory => disk.createDirectories directory

/-- Makes the directory that a path is in, and then does something there. -/
def reach (p : Path) (act : m (Except FileFault Unit)) : m (Except FileFault Unit) := do
  match ← disk.makeParent p with
  | .error f => return .error f
  | .ok () => act

/-- Puts octets in place of those of a file, and makes its directory before. -/
def replace (p : Path) (content : List UInt8) : m (Except FileFault Unit) :=
  disk.reach p (disk.write p content)

/-- Puts octets behind those of a file, and makes its directory before. -/
def extend (p : Path) (more : List UInt8) : m (Except FileFault Unit) :=
  disk.reach p (disk.append p more)

end Disk

namespace FileTree

/-- What is at a path, or nothing when there is no such path. -/
def content (t : FileTree) (p : Path) : Option (Except FileFault (List UInt8)) :=
  if t.exists? p then some (t.read p) else none

/-- The tree that comes of a change, which may fail and then changes nothing. -/
def changed (t : FileTree) (result : Except FileFault FileTree) :
    Except FileFault Unit × FileTree :=
  match result with
  | .ok t => (.ok (), t)
  | .error f => (.error f, t)

/-- A tree of files as a disk. -/
def disk : Disk (StateM FileTree) where
  content p := do return (← get).content p
  createDirectories p := modifyGet fun t => t.createDirectories p
  write p content := modifyGet fun t => t.changed (t.write p content)
  append p more := modifyGet fun t => t.changed (t.append p more)

theorem run_write (t : FileTree) (p : Path) (content : List UInt8) :
    (disk.write p content).run t = t.changed (t.write p content) := rfl

end FileTree

end SourceMarkers
