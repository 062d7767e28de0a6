import SourceMarkers.Session.Basic
import SourceMarkers.Files.Store

/-!
# Beginning and end of a session

A session begins with what the last one kept, and keeps its own catalog when it
ends well. A document that cannot be restored is logged and left alone: the
session then goes on with the catalog it had.

Loading is a step like a command, with an outcome of its own: the events in it
go to the client like those of any other step. Whether there are any is up to
`Session.restore`.

## Main definitions

* `Session.restore`: Taking over what was found in the store.
* `Session.reloadOn`, `Session.shutdownOn`: Loading, and keeping the catalog or
  not, on a disk.
* `Session.reload`, `Session.load`, `Session.start`, `Session.shutdown`: The
  same in a tree of files.

## Theorems

* `Session.reload_eq`, `Session.shutdown_eq`: What these are in a tree of files.
-/

namespace SourceMarkers

open Json (Value)

namespace Session

/-- The outcome of a step that the client is not told of. -/
def quiet (s : Session) (log : List Entry) : Outcome := ⟨s, .ok .null, [], log⟩

/-- The session with the catalog that was found in the store. -/
def restore (s : Session) (store : Store) (found : Except StoreFault (Option Value)) : Outcome :=
  match found with
  | .error f => s.quiet [⟨.warn, s!"Ignoring persisted markers: {f.message}"⟩]
  | .ok none => s.quiet []
  | .ok (some doc) =>
    match Catalog.ofDocument s.shorthand doc with
    | .error f =>
      s.quiet [⟨.error, s!"Failed to restore markers from {store.path.quoted}: {f.message}"⟩]
    | .ok read =>
      (s.withCatalog read.value).quiet (read.log ++
        [⟨.info, s!"Restored {read.value.sets.length} marker sets from {store.path.quoted}"⟩])

/-- The document of the catalog. -/
def document (s : Session) : Value := s.catalog.toJson s.shorthand

/-- The entry of a session that ends badly. -/
def tellNotKept : Logged Unit :=
  Logged.tell .debug "Session terminated abnormally, not persisting markers"

/-- The entries about the saving of the catalog. -/
def tellSaving (saving : Logged (Except StoreFault Unit)) : Logged Unit := do
  match ← saving with
  | .ok () => pure ()
  | .error f => Logged.tell .error f.message

section Disk

variable {m : Type → Type} [Monad m]

/-- Takes over what the store holds on a disk. -/
def reloadOn (s : Session) (disk : Disk m) (store : Store) : m Outcome := do
  let found ← store.loadOn disk
  return (s.restore store found.value).after found.log

/-- Ends a session: one that ends well keeps its catalog on the disk. -/
def shutdownOn (s : Session) (disk : Disk m) (store : Store) (well : Bool) : m (Logged Unit) :=
  if well then do return tellSaving (← store.saveOn disk s.document)
  else return tellNotKept

end Disk

/-! ## In a tree of files -/

/-- Takes over what the store holds. -/
def reload (s : Session) (store : Store) (t : FileTree) : Outcome :=
  ((s.reloadOn FileTree.disk store).run t).1

/-- The session after loading, and what was logged. -/
def load (s : Session) (store : Store) (t : FileTree) : Logged Session :=
  ⟨(s.reload store t).session, (s.reload store t).log⟩

/-- A new session with the catalog that the store holds. -/
def start (shorthand : Shorthand) (store : Store) (t : FileTree) : Logged Session :=
  (new shorthand).load store t

/-- Ends a session: one that ends well keeps its catalog. -/
def shutdown (s : Session) (store : Store) (well : Bool) (t : FileTree) :
    Logged Unit × FileTree :=
  (s.shutdownOn FileTree.disk store well).run t

/-- Loading takes over what the store gives, and logs what the store logs
    before. -/
theorem reload_eq (s : Session) (store : Store) (t : FileTree) :
    s.reload store t = (s.restore store (store.load t).value).after (store.load t).log := rfl

/-- A session that ends well saves its document, and any other one leaves the
    files alone. -/
theorem shutdown_eq (s : Session) (store : Store) (well : Bool) (t : FileTree) :
    s.shutdown store well t =
      if well then (tellSaving (store.save s.document t).1, (store.save s.document t).2)
      else (tellNotKept, t) := by
  unfold shutdown shutdownOn
  cases well with
  | true => rfl
  | false => rfl

end Session

end SourceMarkers
