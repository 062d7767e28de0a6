import SourceMarkers.Files.Disk
import SourceMarkers.Json.Parser
import SourceMarkers.Json.Printer
import SourceMarkers.Log

/-!
# Stored documents

Between sessions the catalog is kept in one file, as the compact text of its
document. Loading takes the file as a whole: nothing when it is not there, and
a fault when it is no text, no JSON text, or no object. Saving makes the
directory of the file and replaces its content.

Both go through a disk, whichever it is. What loading makes of a reading of the
file does not depend on where the reading came from, so it stands alone as
`Store.interpret`.

## Main definitions

* `StoreFault`: Why a document cannot be loaded or saved.
* `Store`: The path of the file.
* `Store.interpret`: The document of a reading.
* `Store.loadOn`, `Store.saveOn`: Loading and saving on a disk.
* `Store.load`, `Store.save`: Loading and saving in a tree of files.

## Theorems

* `Store.load_eq`, `Store.save_eq`: What these two are in a tree of files.
-/

namespace SourceMarkers

open Json (Value)

/-- Why a document cannot be loaded or saved. -/
inductive StoreFault where
  | read (path : Path) (f : FileFault)
  | write (path : Path) (f : FileFault)
  | malformed (f : Json.Fault)
  | notAnObject
deriving DecidableEq, Repr

/-- The message of a fault. -/
def StoreFault.message : StoreFault → String
  | .read path f => s!"Failed to read markers file {path.quoted}: {f.message}"
  | .write path f => s!"Failed to write markers file {path.quoted}: {f.message}"
  | .malformed f => s!"Invalid markers json: {f.message}"
  | .notAnObject => "Invalid markers json: document is not an object"

/-- The file that a catalog is kept in. -/
structure Store where
  path : Path
deriving DecidableEq, Repr

namespace Store

/-- The name of the file in a directory of its own. -/
def fileName : Path := .ofString "source_markers_db"

/-- The store in a directory. -/
def inDirectory (directory : Path) : Store := ⟨directory.join fileName⟩

/-- The document of a file with the given octets. -/
def documentOf (s : Store) (octets : List UInt8) : Except StoreFault Value :=
  match Utf8.decode octets with
  | .error _ => .error (.read s.path .notText)
  | .ok cs =>
    match Json.parseChars cs with
    | .error f => .error (.malformed f)
    | .ok (.object members) => .ok (.object members)
    | .ok _ => .error .notAnObject

/-- The document of a reading of the file, where no reading means that there
    is no such file. -/
def interpret (s : Store) (reading : Option (Except FileFault (List UInt8))) :
    Logged (Except StoreFault (Option Value)) :=
  match reading with
  | none => do
    Logged.tell .debug s!"No persisted markers at {s.path.quoted}"
    pure (.ok none)
  | some (.error f) => pure (.error (.read s.path f))
  | some (.ok octets) => pure ((s.documentOf octets).map some)

/-- The octets that a document is kept as. -/
def textOf (doc : Value) : List UInt8 := Utf8.encode doc.chars

/-- The entry of a document that was saved. -/
def tellSaved (s : Store) : Logged Unit :=
  Logged.tell .debug s!"Persisted markers to {s.path.quoted}"

section Disk

variable {m : Type → Type} [Monad m]

/-- The document that is kept on a disk, if any. -/
def loadOn (s : Store) (disk : Disk m) : m (Logged (Except StoreFault (Option Value))) := do
  return s.interpret (← disk.content s.path)

/-- Keeps a document on a disk in place of what was kept before. -/
def saveOn (s : Store) (disk : Disk m) (doc : Value) : m (Logged (Except StoreFault Unit)) := do
  match ← disk.replace s.path (textOf doc) with
  | .error f => return pure (.error (.write s.path f))
  | .ok () => return do s.tellSaved; pure (.ok ())

end Disk

/-! ## In a tree of files -/

/-- The document that is kept, if any. -/
def load (s : Store) (t : FileTree) : Logged (Except StoreFault (Option Value)) :=
  ((s.loadOn FileTree.disk).run t).1

/-- The tree with the directory of the store made. -/
def makeDirectory (s : Store) (t : FileTree) : Except FileFault Unit × FileTree :=
  (FileTree.disk.makeParent s.path).run t

/-- Keeps a document in place of what was kept before. -/
def save (s : Store) (doc : Value) (t : FileTree) :
    Logged (Except StoreFault Unit) × FileTree :=
  (s.saveOn FileTree.disk doc).run t

/-- Loading goes by what is at the path of the store, and changes nothing. -/
theorem load_eq (s : Store) (t : FileTree) : s.load t = s.interpret (t.content s.path) := rfl

/-- The directory of the store is the one that its path is in. -/
theorem makeDirectory_eq (s : Store) (t : FileTree) :
    s.makeDirectory t =
      match s.path.parent? with
      | none => (.ok (), t)
      | some directory => t.createDirectories directory := by
  unfold makeDirectory Disk.makeParent
  cases s.path.parent? with
  | none => rfl
  | some directory => rfl

/-- Saving makes the directory of the store and then writes the text of the
    document. What was made stays when writing fails. -/
theorem save_eq (s : Store) (doc : Value) (t : FileTree) :
    s.save doc t =
      match s.makeDirectory t with
      | (.error f, t) => (pure (.error (.write s.path f)), t)
      | (.ok (), t) =>
        match t.write s.path (textOf doc) with
        | .error f => (pure (.error (.write s.path f)), t)
        | .ok t => (do s.tellSaved; pure (.ok ()), t) := by
  unfold save saveOn Disk.replace Disk.reach makeDirectory
  rw [run_bind, run_bind]
  rcases (FileTree.disk.makeParent s.path).run t with ⟨made?, made⟩
  cases made? with
  | error f => rfl
  | ok u =>
    simp only [FileTree.run_write]
    cases made.write s.path (textOf doc) with
    | error f => rfl
    | ok t' => rfl

end Store

end SourceMarkers
