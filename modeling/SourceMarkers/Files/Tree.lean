import SourceMarkers.Files.Fault
import SourceMarkers.Files.Folder

/-!
# A tree of files

A file system as a value: directories, and regular files with their octets.
There are no links, so the place of a file is the list of names that lead to
it from the root, which is always a directory.

A path is looked up by walking its pieces. Every step has to start in a
directory, also the step of an idle piece; so a path that goes on behind a
regular file is no path to it, even when only a slash follows. Two dots step
back. A relative path starts at the root. A walk keeps the directories it came
through, so that every step, back as well as on, is one look into a directory,
however deep the tree is.

Writing replaces the whole file. It makes no directories: `createDirectories`
does, trying the deepest first and going up only as far as names are missing.
What it made stays when a later step fails.

## Main definitions

* `FileTree`: A tree of files, by what its root holds.
* `Spot`, `FileTree.walk`: Where a walk stands.
* `FileTree.locate`: The place a path leads to.
* `FileTree.read`, `FileTree.exists?`: What is there.
* `FileTree.write`, `FileTree.append`: Changing a file.
* `FileTree.createDirectories`: A directory with all above it.
* `FileTree.remove`: Taking away a file, or a directory with all below it.

## Theorems

* `FileTree.node?_setNode_self`, `FileTree.node?_setNode_of_ne`: Putting a node
  into a directory is seen there and nowhere else.
* `FileTree.at?_place_of_walk`: A walk stands at what is at its place.
-/

namespace SourceMarkers

/-- A tree of files, by what its root holds. -/
structure FileTree where
  root : Folder
deriving DecidableEq, Repr

/-- Where a walk stands: what is there, and the directories on the way to it,
    nearest first, each with the name that leads on from it. -/
structure Spot where
  item : Item
  way : List (PathPiece × Folder)

namespace Spot

/-- The place of a spot. -/
def place (s : Spot) : Place := (s.way.map Prod.fst).reverse

/-- The spot of the directory above. Above the root is the root itself. -/
def up (s : Spot) : Spot :=
  match s.way with
  | [] => s
  | (_, outside) :: way => ⟨.folder outside, way⟩

end Spot

namespace FileTree

/-- Only the root. -/
def empty : FileTree := ⟨.empty⟩

/-- The node at a place. -/
def node? (t : FileTree) (place : Place) : Option Node :=
  ((Item.folder t.root).at? place).map Item.node

/-- The tree with a node put at a place. -/
def setNode (t : FileTree) (place : Place) (node : Node) : FileTree :=
  ⟨t.root.setAt place node.item⟩

/-- A node that is put into a directory is there. -/
theorem node?_setNode_self (t : FileTree) (above : Place) (name : PathPiece) (node : Node)
    (h : t.node? above = some .directory) :
    (t.setNode (above ++ [name]) node).node? (above ++ [name]) = some node := by
  rw [node?] at h
  cases habove : (Item.folder t.root).at? above with
  | none => rw [habove] at h; exact absurd h (by simp only [Option.map_none, reduceCtorEq,
      not_false_eq_true])
  | some item =>
    cases item with
    | file content => rw [habove] at h; exact absurd h (by simp only [Option.map_some, Item.node,
        Option.some.injEq, reduceCtorEq, not_false_eq_true])
    | folder inside =>
      rw [node?, setNode, Folder.at?_setAt_self t.root inside above name node.item habove,
        Option.map_some, Node.node_item]

/-- Putting a node where no directory stands changes nothing elsewhere. -/
theorem node?_setNode_of_ne (t : FileTree) (place other : Place) (node : Node)
    (h : other ≠ place) (hfree : t.node? place ≠ some .directory) :
    (t.setNode place node).node? other = t.node? other :=
  Folder.node_at?_setAt_of_ne t.root place other node h hfree

/-- The greatest length of a name. -/
def nameLimit : Nat := 255

/-- The length that a path must stay below. -/
def pathLimit : Nat := 4096

/-- The spot of the root. -/
def top (t : FileTree) : Spot := ⟨.folder t.root, []⟩

/-- Walks the pieces of a path from a spot. -/
def walk : Spot → List PathPiece → Except FileFault Spot
  | s, [] => .ok s
  | s, piece :: rest =>
    match s.item with
    | .file _ => .error .notADirectory
    | .folder inside =>
      if Path.isIdle piece then walk s rest
      else if piece = [Path.dot, Path.dot] then walk s.up rest
      else if nameLimit < piece.length then .error .nameTooLong
      else
        match inside.find? piece with
        | some item => walk ⟨item, (piece, inside) :: s.way⟩ rest
        | none => .error .notFound

/-- The spot is in the tree: each name on its way leads to what comes next. -/
inductive Holds (t : FileTree) : Spot → Prop where
  | top : Holds t t.top
  | step (inside : Folder) (way : List (PathPiece × Folder)) (name : PathPiece) (item : Item)
      (h : Holds t ⟨.folder inside, way⟩) (hname : inside.find? name = some item) :
      Holds t ⟨item, (name, inside) :: way⟩

/-- What a spot stands at is what is at its place. -/
theorem Holds.at?_place {t : FileTree} {s : Spot} (h : t.Holds s) :
    (Item.folder t.root).at? s.place = some s.item := by
  induction h with
  | top => rfl
  | step inside way name item _ hname ih =>
    rw [Spot.place, List.map_cons, List.reverse_cons, Item.at?_append]
    rw [Spot.place] at ih
    rw [ih, Option.bind_some, Item.at?, hname, Option.bind_some, Item.at?_nil]

theorem Holds.up {t : FileTree} {s : Spot} (h : t.Holds s) : t.Holds s.up := by
  cases h with
  | top => exact .top
  | step inside way name item h _ => exact h

theorem Holds.walk {t : FileTree} {pieces : List PathPiece} {s s' : Spot} (h : t.Holds s)
    (hwalk : FileTree.walk s pieces = .ok s') : t.Holds s' := by
  induction pieces generalizing s with
  | nil =>
    rw [FileTree.walk, Except.ok.injEq] at hwalk
    exact hwalk ▸ h
  | cons piece rest ih =>
    rcases s with ⟨item, way⟩
    cases item with
    | file content => exact absurd hwalk (by simp only [FileTree.walk, reduceCtorEq,
        not_false_eq_true])
    | folder inside =>
      simp only [FileTree.walk] at hwalk
      split at hwalk
      · exact ih h hwalk
      · split at hwalk
        · exact ih h.up hwalk
        · split at hwalk
          · exact absurd hwalk (by simp only [reduceCtorEq, not_false_eq_true])
          · split at hwalk
            · next item hname => exact ih (.step inside way piece item h hname) hwalk
            · exact absurd hwalk (by simp only [reduceCtorEq, not_false_eq_true])

/-- A walk from the root stands at what is at its place. -/
theorem at?_place_of_walk (t : FileTree) (pieces : List PathPiece) (s : Spot)
    (h : walk t.top pieces = .ok s) : (Item.folder t.root).at? s.place = some s.item :=
  (Holds.top.walk h).at?_place

/-- The pieces of a path that can be handed to a file system. -/
def usablePieces (p : Path) : Except FileFault (List PathPiece) :=
  if 0 ∈ p.octets then .error .nullInName
  else if p.octets = [] then .error .notFound
  else if pathLimit ≤ p.octets.length then .error .nameTooLong
  else .ok p.pieces

/-- The spot that a path leads to. -/
def follow (t : FileTree) (p : Path) : Except FileFault Spot := do
  let pieces ← usablePieces p
  walk t.top pieces

/-- The place that a path leads to. -/
def locate (t : FileTree) (p : Path) : Except FileFault Place := (t.follow p).map Spot.place

/-- There is something at a path. -/
def exists? (t : FileTree) (p : Path) : Bool := (t.follow p).isOk

/-- There is a directory at a path. -/
def isDirectory (t : FileTree) (p : Path) : Bool :=
  match t.follow p with
  | .ok ⟨.folder _, _⟩ => true
  | _ => false

/-- The octets of the file at a path. -/
def read (t : FileTree) (p : Path) : Except FileFault (List UInt8) := do
  let s ← t.follow p
  match s.item with
  | .file content => .ok content
  | .folder _ => .error .isADirectory

/-- A name in a directory, which may be free. -/
structure Slot where
  /-- The place of the directory. -/
  above : Place
  /-- What the directory holds. -/
  inside : Folder
  name : PathPiece

/-- The place of a name in a directory. -/
def Slot.place (s : Slot) : Place := s.above ++ [s.name]

/-- What stands there. -/
def Slot.item? (s : Slot) : Option Item := s.inside.find? s.name

/-- The directory that the last name of a path is looked up in, and that name.
    Slashes behind the name are passed over; the root is a dot in itself. -/
def lastStep (t : FileTree) (p : Path) : Except FileFault Slot := do
  let pieces ← usablePieces p
  let named := (pieces.reverse.dropWhile fun piece => piece == []).reverse
  let s ← walk t.top named.dropLast
  match s.item with
  | .folder inside => .ok ⟨s.place, inside, named.getLast?.getD [Path.dot]⟩
  | .file _ => .error .notADirectory

/-- The last name of a path is no name of its own: dots. -/
def isDots (piece : PathPiece) : Bool := piece == [Path.dot] || piece == [Path.dot, Path.dot]

/-- The place and the present content of the file that writing to a path goes
    to. A path that ends in a slash or in dots can only be a directory. -/
def target (t : FileTree) (p : Path) : Except FileFault (Place × List UInt8) := do
  let slot ← t.lastStep p
  if p.octets.getLast? = some Path.slash ∨ isDots slot.name then .error .isADirectory
  else if nameLimit < slot.name.length then .error .nameTooLong
  else
    match slot.item? with
    | some (.folder _) => .error .isADirectory
    | some (.file content) => .ok (slot.place, content)
    | none => .ok (slot.place, [])

/-- The tree with the octets of a file replaced, or the file made. -/
def write (t : FileTree) (p : Path) (content : List UInt8) : Except FileFault FileTree :=
  (t.target p).map fun (place, _) => t.setNode place (.file content)

/-- The tree with octets added at the end of a file, or the file made with
    them. -/
def append (t : FileTree) (p : Path) (more : List UInt8) : Except FileFault FileTree :=
  (t.target p).map fun (place, content) => t.setNode place (.file (content ++ more))

/-- The tree with a new directory. -/
def createDirectory (t : FileTree) (p : Path) : Except FileFault FileTree := do
  let slot ← t.lastStep p
  if isDots slot.name then .error .alreadyThere
  else if nameLimit < slot.name.length then .error .nameTooLong
  else if slot.item?.isSome then .error .alreadyThere
  else .ok (t.setNode slot.place .directory)

/-- Makes a directory, and before it those above it that are missing, going up
    at most `bound` times. The empty path is where relative paths start, and is
    there already. -/
def createUpTo : Nat → FileTree → Path → Except FileFault Unit × FileTree
  | 0, t, _ => (.error .noParent, t)
  | bound + 1, t, p =>
    if p.octets = [] then (.ok (), t)
    else
      match t.createDirectory p with
      | .ok made => (.ok (), made)
      | .error .notFound =>
        match p.parent? with
        | none => (.error .noParent, t)
        | some up =>
          match createUpTo bound t up with
          | (.error e, t) => (.error e, t)
          | (.ok (), t) =>
            match t.createDirectory p with
            | .ok made => (.ok (), made)
            | .error e => (if t.isDirectory p then .ok () else .error e, t)
      | .error e => (if t.isDirectory p then .ok () else .error e, t)

/-- Makes a directory with all above it that are missing. The tree is given
    back also on a fault, with what was made before it. Each path above is
    shorter than the one below it, so the length of the path bounds the way. -/
def createDirectories (t : FileTree) (p : Path) : Except FileFault Unit × FileTree :=
  createUpTo (p.octets.length + 1) t p

/-- The tree without what is at a path and below it. -/
def remove (t : FileTree) (p : Path) : FileTree :=
  match t.locate p with
  | .ok place => ⟨t.root.eraseAt place⟩
  | .error _ => t

/-- All regular files with their places. -/
def regularFiles (t : FileTree) : List (Place × List UInt8) := t.root.files

end FileTree

end SourceMarkers
