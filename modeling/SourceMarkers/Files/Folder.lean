import SourceMarkers.Path.Basic

/-!
# Folders

What a directory holds: files with their octets, and further directories, all
under names. A folder is one chain of entries, so an induction on it meets a
file, a folder or the end, and the folder inside an entry is a part of it like
the rest of the chain.

A place is the list of names that leads from a folder to something below it.

## Main definitions

* `Folder`, `Item`: What a directory holds, and what stands under one name.
* `Node`: An item without what a directory holds.
* `Folder.find?`, `Folder.set`, `Folder.erase`: One name.
* `Item.at?`, `Folder.setAt`, `Folder.eraseAt`: One place.
* `Folder.files`: All regular files with their places.

## Theorems

* `Folder.find?_set_self`, `Folder.find?_set_of_ne`: Setting a name is seen
  under that name and under no other.
* `Item.at?_append`: A place is followed in steps.
* `Folder.at?_setAt_self`, `Folder.node_at?_setAt_of_ne`: What is set in a
  directory is found there, and nothing is changed elsewhere.
-/

namespace SourceMarkers

/-- The names that lead to a file from the root. -/
abbrev Place := List PathPiece

/-- What a directory holds. Of entries with one name the first counts. -/
inductive Folder where
  | empty
  | file (name : PathPiece) (content : List UInt8) (rest : Folder)
  | folder (name : PathPiece) (inside rest : Folder)
deriving DecidableEq, Repr

/-- What stands under a name. -/
inductive Item where
  | folder (inside : Folder)
  | file (content : List UInt8)
deriving DecidableEq, Repr

/-- What is at a place, without what a directory holds. -/
inductive Node where
  | directory
  | file (content : List UInt8)
deriving DecidableEq, Repr

/-- What an item is at its own place. -/
def Item.node : Item → Node
  | .folder _ => .directory
  | .file content => .file content

/-- The item that a node starts as: a directory holds nothing. -/
def Node.item : Node → Item
  | .directory => .folder .empty
  | .file content => .file content

theorem Node.node_item (node : Node) : node.item.node = node := by
  cases node <;> rfl

namespace Folder

/-- The folder with one more entry in front. -/
def add (name : PathPiece) (rest : Folder) : Item → Folder
  | .folder inside => .folder name inside rest
  | .file content => .file name content rest

/-- What stands under a name. -/
def find? : Folder → PathPiece → Option Item
  | .empty, _ => none
  | .file name content rest, wanted =>
    if name = wanted then some (.file content) else rest.find? wanted
  | .folder name inside rest, wanted =>
    if name = wanted then some (.folder inside) else rest.find? wanted

/-- The folder with an item under a name, in place of what stood there. -/
def set : Folder → PathPiece → Item → Folder
  | .empty, wanted, item => add wanted .empty item
  | .file name content rest, wanted, item =>
    if name = wanted then add wanted rest item else .file name content (rest.set wanted item)
  | .folder name inside rest, wanted, item =>
    if name = wanted then add wanted rest item else .folder name inside (rest.set wanted item)

/-- The folder without a name. -/
def erase : Folder → PathPiece → Folder
  | .empty, _ => .empty
  | .file name content rest, wanted =>
    if name = wanted then rest.erase wanted else .file name content (rest.erase wanted)
  | .folder name inside rest, wanted =>
    if name = wanted then rest.erase wanted else .folder name inside (rest.erase wanted)

theorem find?_add_self (name : PathPiece) (rest : Folder) (item : Item) :
    (add name rest item).find? name = some item := by
  cases item with
  | folder inside => exact if_pos rfl
  | file content => exact if_pos rfl

theorem find?_add_of_ne (name other : PathPiece) (rest : Folder) (item : Item)
    (h : name ≠ other) : (add name rest item).find? other = rest.find? other := by
  cases item with
  | folder inside => exact if_neg h
  | file content => exact if_neg h

theorem find?_set_self (f : Folder) (name : PathPiece) (item : Item) :
    (f.set name item).find? name = some item := by
  induction f with
  | empty => exact find?_add_self name .empty item
  | file first content rest ih =>
    rw [set]
    split
    · exact find?_add_self name rest item
    · next hne => rw [find?, if_neg hne, ih]
  | folder first inside rest _ ih =>
    rw [set]
    split
    · exact find?_add_self name rest item
    · next hne => rw [find?, if_neg hne, ih]

/-- Setting a name changes nothing under the others. -/
theorem find?_set_of_ne (f : Folder) (name other : PathPiece) (item : Item)
    (h : other ≠ name) : (f.set name item).find? other = f.find? other := by
  induction f with
  | empty => exact find?_add_of_ne name other .empty item h.symm
  | file first content rest ih =>
    rw [set]
    split
    · next heq => rw [find?_add_of_ne name other rest item h.symm, find?, heq, if_neg h.symm]
    · rw [find?, find?, ih]
  | folder first inside rest _ ih =>
    rw [set]
    split
    · next heq => rw [find?_add_of_ne name other rest item h.symm, find?, heq, if_neg h.symm]
    · rw [find?, find?, ih]

/-- The folder with an item at a place, in place of what stood there. Nothing
    changes where a directory on the way is missing, or at the folder itself. -/
def setAt : Folder → Place → Item → Folder
  | f, [], _ => f
  | f, [name], item => f.set name item
  | f, name :: next :: rest, item =>
    match f.find? name with
    | some (.folder inside) => f.set name (.folder (inside.setAt (next :: rest) item))
    | _ => f

/-- The folder without what is at a place and below it. -/
def eraseAt : Folder → Place → Folder
  | _, [] => .empty
  | f, [name] => f.erase name
  | f, name :: next :: rest =>
    match f.find? name with
    | some (.folder inside) => f.set name (.folder (inside.eraseAt (next :: rest)))
    | _ => f

/-- All regular files, each with its place behind the names that lead to the
    folder, which are given latest first. -/
def filesFrom (way : List PathPiece) : Folder → List (Place × List UInt8)
  | .empty => []
  | .file name content rest => ((name :: way).reverse, content) :: filesFrom way rest
  | .folder name inside rest => filesFrom (name :: way) inside ++ filesFrom way rest

/-- All regular files with their places. -/
def files (f : Folder) : List (Place × List UInt8) := filesFrom [] f

end Folder

namespace Item

/-- What is at a place below an item. -/
def at? : Item → Place → Option Item
  | item, [] => some item
  | .file _, _ :: _ => none
  | .folder inside, name :: rest => (inside.find? name).bind fun item => item.at? rest

theorem at?_nil (item : Item) : item.at? [] = some item := by
  cases item <;> rfl

/-- A place is followed in steps. -/
theorem at?_append (item : Item) (p q : Place) :
    item.at? (p ++ q) = (item.at? p).bind fun below => below.at? q := by
  induction p generalizing item with
  | nil => rw [List.nil_append, at?_nil, Option.bind_some]
  | cons name rest ih =>
    cases item with
    | file content => rfl
    | folder inside =>
      rw [List.cons_append, at?, at?]
      cases inside.find? name with
      | none => rfl
      | some item => exact ih item

end Item

namespace Folder

/-- What is set under a name in a directory is found there. -/
theorem at?_setAt_self (f inside : Folder) (above : Place) (name : PathPiece) (item : Item)
    (h : (Item.folder f).at? above = some (.folder inside)) :
    (Item.folder (f.setAt (above ++ [name]) item)).at? (above ++ [name]) = some item := by
  induction above generalizing f with
  | nil => rw [List.nil_append, setAt, Item.at?, find?_set_self, Option.bind_some, Item.at?_nil]
  | cons first rest ih =>
    rw [Item.at?] at h
    cases hfirst : f.find? first with
    | none => rw [hfirst] at h; exact absurd h (by simp only [Option.bind_none, reduceCtorEq,
        not_false_eq_true])
    | some below =>
      rw [hfirst, Option.bind_some] at h
      cases below with
      | file content =>
        cases rest with
        | nil => simp only [Item.at?_nil, Option.some.injEq, reduceCtorEq] at h
        | cons _ _ => simp only [Item.at?, reduceCtorEq] at h
      | folder below =>
        have hset : f.setAt (first :: rest ++ [name]) item =
            f.set first (.folder (below.setAt (rest ++ [name]) item)) := by
          cases rest with
          | nil => simp only [List.cons_append, List.nil_append, setAt, hfirst]
          | cons _ _ => simp only [List.cons_append, setAt, hfirst]
        rw [hset, List.cons_append, Item.at?, find?_set_self, Option.bind_some]
        exact ih below h

/-- Below a node that was just put there is nothing. -/
theorem at?_item_cons (node : Node) (name : PathPiece) (rest : Place) :
    node.item.at? (name :: rest) = none := by
  cases node <;> rfl

/-- Where no directory stands, setting a node changes nothing at the other
    places. -/
theorem node_at?_setAt_of_ne (f : Folder) (place other : Place) (node : Node)
    (h : other ≠ place)
    (hfree : ((Item.folder f).at? place).map Item.node ≠ some .directory) :
    ((Item.folder (f.setAt place node.item)).at? other).map Item.node =
      ((Item.folder f).at? other).map Item.node := by
  induction place generalizing f other with
  | nil => rfl
  | cons name more ih =>
    cases other with
    | nil => rw [Item.at?_nil, Item.at?_nil]; rfl
    | cons first rest =>
      by_cases hfirst : first = name
      · rw [hfirst] at h ⊢
        have hrest : rest ≠ more := fun heq => h (by rw [heq])
        rw [Item.at?] at hfree
        cases hname : f.find? name with
        | none =>
          cases more with
          | nil =>
            cases rest with
            | nil => exact absurd rfl hrest
            | cons _ _ =>
              rw [setAt, Item.at?, find?_set_self, Option.bind_some, at?_item_cons, Item.at?,
                hname, Option.bind_none]
          | cons _ _ => simp only [setAt, hname]
        | some item =>
          rw [hname, Option.bind_some] at hfree
          cases more with
          | nil =>
            cases rest with
            | nil => exact absurd rfl hrest
            | cons _ _ =>
              rw [Item.at?_nil] at hfree
              cases item with
              | folder inside => exact absurd rfl hfree
              | file content =>
                rw [setAt, Item.at?, find?_set_self, Option.bind_some, at?_item_cons, Item.at?,
                  hname, Option.bind_some, Item.at?]
          | cons next more =>
            cases item with
            | file content => simp only [setAt, hname]
            | folder inside =>
              simp only [setAt, hname, Item.at?, find?_set_self, Option.bind_some]
              exact ih inside rest hrest hfree
      · have hother : ∀ item, (f.set name item).find? first = f.find? first :=
          fun item => find?_set_of_ne f name first item hfirst
        cases more with
        | nil => rw [setAt, Item.at?, Item.at?, hother]
        | cons next more =>
          rw [setAt]
          split
          · rw [Item.at?, Item.at?, hother]
          · rfl

end Folder

end SourceMarkers
