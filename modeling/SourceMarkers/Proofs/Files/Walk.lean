import SourceMarkers.Files.Tree

/-!
# Walks through a changed tree

Putting a node where no directory stands leaves all directories where they
are. So a walk that ends in a directory is possible in the changed tree as
well, and ends at the same place: every step but the last starts in a
directory, and two dots go back to one. That is the only fact about walks that
writing needs.

A name in a directory is reached by walking to the directory and taking one
more step. `Slot` holds what the step starts from, so a change to a tree is
followed from slot to slot, and what stands in a slot is read off `node?`.

## Main definitions

* `FileTree.named`: The pieces of a path without slashes behind the last name.
* `FileTree.Mirrors`: A spot in one tree and a directory at the same place in
  another.

## Theorems

* `FileTree.walk_append`: Walking in two parts.
* `FileTree.walk_mirrors`: A walk to a directory in a changed tree.
* `FileTree.lastStep_of_dirs`: The last step of a path in a changed tree.
* `FileTree.walk_named`: Going on from the directory to the name.
-/

namespace SourceMarkers

namespace FileTree

/-! ## Single walks -/

-- The induction is over the pieces of the first part, with the spot left open.
theorem walk_append (s : Spot) (front back : List PathPiece) :
    walk s (front ++ back) = (walk s front).bind fun r => walk r back := by
  induction front generalizing s with
  | nil => rfl
  | cons piece rest ih =>
    rw [List.cons_append, walk, walk]
    cases s.item with
    | file content => rfl
    | folder inside =>
      -- Every branch is a fault on both sides or a step to the same spot.
      simp only []
      split
      · exact ih s
      · split
        · exact ih s.up
        · split
          · rfl
          · cases inside.find? piece with
            | none => rfl
            | some item => exact ih _

/-- Idle pieces lead nowhere from a directory. -/
theorem walk_idle (s : Spot) (inside : Folder) (hs : s.item = .folder inside)
    (idle : List PathPiece) (h : ∀ piece ∈ idle, Path.isIdle piece = true) :
    walk s idle = .ok s := by
  induction idle with
  | nil => rfl
  | cons piece rest ih =>
    rw [walk, hs]
    simp only [h piece List.mem_cons_self, if_true]
    exact ih fun other hother => h other (List.mem_cons_of_mem _ hother)

/-- A step to a name. -/
theorem walk_name (s : Spot) (inside : Folder) (name : PathPiece) (item : Item)
    (hs : s.item = .folder inside) (hidle : Path.isIdle name = false)
    (hdots : name ≠ [Path.dot, Path.dot]) (hlimit : ¬ nameLimit < name.length)
    (hitem : inside.find? name = some item) :
    walk s [name] = .ok ⟨item, (name, inside) :: s.way⟩ := by
  rw [walk, hs]
  simp only [hidle, Bool.false_eq_true, if_false, if_neg hdots, if_neg hlimit, hitem]
  rfl

/-- What a step to a name found. -/
theorem find?_of_walk_name (s r : Spot) (inside : Folder) (name : PathPiece)
    (hs : s.item = .folder inside) (hidle : Path.isIdle name = false)
    (hdots : name ≠ [Path.dot, Path.dot]) (hwalk : walk s [name] = .ok r) :
    ¬ nameLimit < name.length ∧ inside.find? name = some r.item := by
  rw [walk, hs] at hwalk
  simp only [hidle, Bool.false_eq_true, if_false, if_neg hdots] at hwalk
  split at hwalk
  · exact absurd hwalk (by simp only [reduceCtorEq, not_false_eq_true])
  · -- The name is short enough, so the walk looked it up.
    next hlimit =>
    cases hfind : inside.find? name with
    | none =>
      rw [hfind] at hwalk
      exact absurd hwalk (by simp only [reduceCtorEq, not_false_eq_true])
    | some item =>
      simp only [hfind, walk, Except.ok.injEq] at hwalk
      rw [← hwalk]
      exact ⟨hlimit, rfl⟩

/-- A walk that goes on starts in a directory. -/
theorem folder_of_walk_cons (s r : Spot) (piece : PathPiece) (rest : List PathPiece)
    (h : walk s (piece :: rest) = .ok r) : ∃ inside, s.item = .folder inside := by
  cases hs : s.item with
  | folder inside => exact ⟨inside, rfl⟩
  | file content =>
    rw [walk, hs] at h
    exact absurd h (by simp only [reduceCtorEq, not_false_eq_true])

/-! ## Walks in two trees -/

/-- The spot `s` stands in `t`, and `s'` stands in a directory of `t'` at the
    same place. -/
structure Mirrors (t t' : FileTree) (s s' : Spot) : Prop where
  holds : t.Holds s
  holds' : t'.Holds s'
  names : s'.way.map Prod.fst = s.way.map Prod.fst
  folder : ∃ inside, s'.item = .folder inside

namespace Mirrors

variable {t t' : FileTree} {s s' : Spot}

theorem top (t t' : FileTree) : Mirrors t t' t.top t'.top := ⟨.top, .top, rfl, t'.root, rfl⟩

theorem place_eq (h : Mirrors t t' s s') : s'.place = s.place := by
  unfold Spot.place
  rw [h.names]

theorem up (h : Mirrors t t' s s') : Mirrors t t' s.up s'.up := by
  refine ⟨h.holds.up, h.holds'.up, ?_, ?_⟩
  · -- Both ways have the same length, so both lose a name or neither does.
    rcases s with ⟨item, way⟩
    rcases s' with ⟨item', way'⟩
    have hnames : way'.map Prod.fst = way.map Prod.fst := h.names
    cases way with
    | nil =>
      cases way' with
      | nil => rfl
      | cons _ _ => exact absurd hnames (by simp only [List.map_cons, List.map_nil, reduceCtorEq,
          not_false_eq_true])
    | cons first way =>
      cases way' with
      | nil => exact absurd hnames (by simp only [List.map_cons, List.map_nil, reduceCtorEq,
          not_false_eq_true])
      | cons first' way' =>
        rw [List.map_cons, List.map_cons, List.cons.injEq] at hnames
        exact hnames.2
  · -- At the root two dots stay, and elsewhere they lead to a directory.
    rcases s' with ⟨item', _ | ⟨⟨name, outside⟩, way'⟩⟩
    · exact h.folder
    · exact ⟨outside, rfl⟩

end Mirrors

theorem node?_place (t : FileTree) (s : Spot) (h : t.Holds s) :
    t.node? s.place = some s.item.node := by
  rw [node?, h.at?_place]
  rfl

/-- What stands under a name in the directory of a spot. -/
theorem node?_below (t : FileTree) (s : Spot) (inside : Folder) (name : PathPiece)
    (h : t.Holds s) (hs : s.item = .folder inside) :
    t.node? (s.place ++ [name]) = (inside.find? name).map Item.node := by
  rw [node?, Item.at?_append, h.at?_place, hs, Option.bind_some, Item.at?]
  cases inside.find? name with
  | none => rfl
  | some item => rw [Option.bind_some, Item.at?_nil]

/-! ## The last step of a path -/

/-- The pieces of a path without the slashes behind its last name. -/
def named (p : Path) : List PathPiece :=
  (p.pieces.reverse.dropWhile fun piece => piece == []).reverse

/-- What follows the last name is idle. -/
theorem pieces_eq_named_append (p : Path) :
    ∃ idle, p.pieces = named p ++ idle ∧ ∀ piece ∈ idle, piece = [] := by
  refine ⟨(p.pieces.reverse.takeWhile fun piece => piece == []).reverse, ?_, fun piece h => ?_⟩
  · unfold named
    rw [← List.reverse_append, List.takeWhile_append_dropWhile, List.reverse_reverse]
  · rw [List.mem_reverse] at h
    exact beq_iff_eq.mp (List.all_eq_true.mp List.all_takeWhile piece h)

/-- A path has no last name, or its last name is not empty. -/
theorem named_cases (p : Path) :
    named p = [] ∨ ∃ name, named p = (named p).dropLast ++ [name] ∧ name ≠ [] := by
  by_cases h : named p = []
  · exact Or.inl h
  · refine Or.inr ⟨(named p).getLast h, (List.dropLast_concat_getLast h).symm, fun hnil => ?_⟩
    -- The last name is where the search from the end stopped.
    have hrev : p.pieces.reverse.dropWhile (fun piece => piece == []) ≠ [] := by
      intro hempty
      unfold named at h
      rw [hempty] at h
      exact h rfl
    have hhead := List.head_dropWhile_not (fun piece : PathPiece => piece == []) hrev
    have hlast : (named p).getLast h =
        (p.pieces.reverse.dropWhile fun piece => piece == []).head hrev :=
      List.getLast_reverse h
    rw [← hlast, hnil] at hhead
    exact absurd hhead (by decide)

theorem usablePieces_eq_ok (p : Path) (pieces : List PathPiece) (h : usablePieces p = .ok pieces) :
    pieces = p.pieces := by
  unfold usablePieces at h
  split at h
  · exact absurd h (by simp only [reduceCtorEq, not_false_eq_true])
  split at h
  · exact absurd h (by simp only [reduceCtorEq, not_false_eq_true])
  split at h
  · exact absurd h (by simp only [reduceCtorEq, not_false_eq_true])
  · exact (Except.ok.inj h).symm

theorem follow_eq_ok (t : FileTree) (p : Path) (s : Spot) :
    t.follow p = .ok s ↔ usablePieces p = .ok p.pieces ∧ walk t.top p.pieces = .ok s := by
  unfold follow
  cases hpieces : usablePieces p with
  | error f => simp only [bind, Except.bind, reduceCtorEq, false_and]
  | ok pieces =>
    rw [usablePieces_eq_ok p pieces hpieces]
    simp only [bind, Except.bind, true_and]

theorem isDirectory_iff (t : FileTree) (p : Path) :
    t.isDirectory p = true ↔ usablePieces p = .ok p.pieces ∧
      ∃ s inside, walk t.top p.pieces = .ok s ∧ s.item = .folder inside := by
  constructor
  · intro h
    unfold isDirectory at h
    split at h
    · next inside way hfollow =>
      rcases (follow_eq_ok t p _).mp hfollow with ⟨husable, hwalk⟩
      exact ⟨husable, _, inside, hwalk, rfl⟩
    · exact absurd h (by decide)
  · rintro ⟨husable, ⟨item, way⟩, inside, hwalk, hs⟩
    have hitem : item = .folder inside := hs
    unfold isDirectory
    rw [(follow_eq_ok t p _).mpr ⟨husable, hwalk⟩, hitem]

/-- The last step starts where the walk to it ends. -/
theorem lastStep_eq_ok (t : FileTree) (p : Path) (slot : Slot) (h : t.lastStep p = .ok slot) :
    usablePieces p = .ok p.pieces ∧ ∃ s, walk t.top (named p).dropLast = .ok s ∧
      s.item = .folder slot.inside ∧ slot.above = s.place ∧
      slot.name = (named p).getLast?.getD [Path.dot] := by
  unfold lastStep at h
  cases hpieces : usablePieces p with
  | error f =>
    rw [hpieces] at h
    exact absurd h (by simp only [bind, Except.bind, reduceCtorEq, not_false_eq_true])
  | ok pieces =>
    have heq := usablePieces_eq_ok p pieces hpieces
    rw [hpieces, heq] at h
    refine ⟨by rw [heq], ?_⟩
    simp only [bind, Except.bind] at h
    -- The walk to the last step goes through, and ends in a directory.
    cases hwalk : walk t.top (named p).dropLast with
    | error f =>
      unfold named at hwalk
      rw [hwalk] at h
      exact absurd h (by simp only [reduceCtorEq, not_false_eq_true])
    | ok s =>
      unfold named at hwalk
      rw [hwalk] at h
      simp only [] at h
      cases hs : s.item with
      | file content =>
        rw [hs] at h
        exact absurd h (by simp only [reduceCtorEq, not_false_eq_true])
      | folder inside =>
        rw [hs] at h
        simp only [Except.ok.injEq] at h
        rw [← h]
        exact ⟨s, rfl, hs, rfl, rfl⟩

theorem lastStep_of_walk (t : FileTree) (p : Path) (s : Spot) (inside : Folder)
    (husable : usablePieces p = .ok p.pieces) (hwalk : walk t.top (named p).dropLast = .ok s)
    (hs : s.item = .folder inside) :
    t.lastStep p = .ok ⟨s.place, inside, (named p).getLast?.getD [Path.dot]⟩ := by
  unfold named at hwalk ⊢
  unfold lastStep
  rw [husable]
  simp only [bind, Except.bind, hwalk, hs]

theorem node?_slot (t : FileTree) (p : Path) (slot : Slot) (h : t.lastStep p = .ok slot) :
    t.node? slot.above = some .directory ∧
      t.node? slot.place = slot.item?.map Item.node := by
  rcases lastStep_eq_ok t p slot h with ⟨_, s, hwalk, hs, habove, _⟩
  have hholds : t.Holds s := Holds.top.walk hwalk
  constructor
  · rw [habove, node?_place t s hholds, hs]
    rfl
  · unfold Slot.place
    rw [habove, node?_below t s slot.inside slot.name hholds hs]
    rfl

/-- A last name that is not made of dots is a name of its own. -/
theorem named_eq_append (p : Path) (name : PathPiece)
    (hname : name = (named p).getLast?.getD [Path.dot]) (hdots : isDots name = false) :
    named p = (named p).dropLast ++ [name] ∧ Path.isIdle name = false ∧
      name ≠ [Path.dot, Path.dot] := by
  simp only [isDots, Bool.or_eq_false_iff, beq_eq_false_iff_ne, ne_eq] at hdots
  rcases named_cases p with hnil | ⟨last, hlast, hne⟩
  · -- Without a name there is only the dot of the root.
    rw [hnil] at hname
    exact absurd hname hdots.1
  · have heq : name = last := by
      rw [hname, hlast, List.getLast?_concat]
      rfl
    rw [heq] at hdots ⊢
    refine ⟨hlast, ?_, hdots.2⟩
    simp only [Path.isIdle, Bool.or_eq_false_iff, beq_eq_false_iff_ne, ne_eq]
    exact ⟨hne, hdots.1⟩

/-- A walk over all names of a path ends at what stands in the slot of its last
    step. -/
theorem walk_named (t : FileTree) (p : Path) (slot : Slot) (item : Item)
    (h : t.lastStep p = .ok slot) (hdots : isDots slot.name = false)
    (hlimit : ¬ nameLimit < slot.name.length) (hitem : slot.item? = some item) :
    ∃ s, walk t.top (named p) = .ok s ∧ s.item = item := by
  rcases lastStep_eq_ok t p slot h with ⟨_, s, hwalk, hs, _, hname⟩
  rcases named_eq_append p slot.name hname hdots with ⟨hnamed, hidle, hup⟩
  refine ⟨⟨item, (slot.name, slot.inside) :: s.way⟩, ?_, rfl⟩
  rw [hnamed, walk_append, hwalk]
  exact walk_name s slot.inside slot.name item hs hidle hup hlimit hitem

/-! ## Changed trees -/

variable {t t' : FileTree} (hdirs : ∀ place, t.node? place = some .directory →
  t'.node? place = some .directory)

include hdirs

/-- Where all directories stay, a walk to a directory leads to the same place. -/
theorem walk_mirrors (pieces : List PathPiece) (s s' r : Spot) (h : Mirrors t t' s s')
    (hwalk : walk s pieces = .ok r) (hr : ∃ inside, r.item = .folder inside) :
    ∃ r', walk s' pieces = .ok r' ∧ Mirrors t t' r r' := by
  -- `Mirrors` holds before and after each step, whatever piece it takes.
  induction pieces generalizing s s' with
  | nil =>
    rw [walk, Except.ok.injEq] at hwalk
    exact ⟨s', rfl, hwalk ▸ h⟩
  | cons piece rest ih =>
    rcases folder_of_walk_cons s r piece rest hwalk with ⟨inside, hs⟩
    rcases h.folder with ⟨inside', hs'⟩
    rw [walk, hs] at hwalk
    rw [walk, hs']
    simp only [] at hwalk ⊢
    by_cases hidle : Path.isIdle piece = true
    · rw [if_pos hidle] at hwalk ⊢
      exact ih s s' h hwalk
    rw [if_neg hidle] at hwalk ⊢
    by_cases hdots : piece = [Path.dot, Path.dot]
    · rw [if_pos hdots] at hwalk ⊢
      exact ih s.up s'.up h.up hwalk
    rw [if_neg hdots] at hwalk ⊢
    -- What is left is a name, which the walk found.
    by_cases hlimit : nameLimit < piece.length
    · rw [if_pos hlimit] at hwalk
      exact absurd hwalk (by simp only [reduceCtorEq, not_false_eq_true])
    rw [if_neg hlimit] at hwalk ⊢
    cases hfind : inside.find? piece with
    | none =>
      rw [hfind] at hwalk
      exact absurd hwalk (by simp only [reduceCtorEq, not_false_eq_true])
    | some item =>
      simp only [hfind] at hwalk
      -- The walk ends in a directory, so what the name leads to is one too.
      have hitem : ∃ below, item = .folder below := by
        cases rest with
        | nil =>
          rw [walk, Except.ok.injEq] at hwalk
          rw [← hwalk] at hr
          exact hr
        | cons next rest => exact folder_of_walk_cons _ r next rest hwalk
      rcases hitem with ⟨below, rfl⟩
      -- A directory stays, so the name leads to one in the changed tree as well.
      have hnode := node?_below t s inside piece h.holds hs
      rw [hfind] at hnode
      have hnode' := node?_below t' s' inside' piece h.holds' hs'
      rw [h.place_eq, hdirs _ hnode] at hnode'
      rcases Option.map_eq_some_iff.mp hnode'.symm with ⟨item', hfind', hfolder⟩
      cases item' with
      | file content => exact absurd hfolder (by simp only [Item.node, reduceCtorEq,
          not_false_eq_true])
      | folder below' =>
        simp only [hfind']
        refine ih _ _ ⟨?_, ?_, ?_, below', rfl⟩ hwalk
        · exact .step inside s.way piece _ (by rw [← hs]; exact h.holds) hfind
        · exact .step inside' s'.way piece _ (by rw [← hs']; exact h.holds') hfind'
        · rw [List.map_cons, List.map_cons, h.names]

/-- Where all directories stay, a path leads to a directory as before. -/
theorem isDirectory_of_dirs (p : Path) (h : t.isDirectory p = true) : t'.isDirectory p = true := by
  rw [isDirectory_iff] at h ⊢
  rcases h with ⟨husable, s, inside, hwalk, hs⟩
  rcases walk_mirrors hdirs p.pieces t.top t'.top s (.top t t') hwalk ⟨inside, hs⟩ with
    ⟨s', hwalk', hmirrors⟩
  rcases hmirrors.folder with ⟨inside', hs'⟩
  exact ⟨husable, s', inside', hwalk', hs'⟩

/-- Where all directories stay, the last step of a path starts at the same
    place. -/
theorem lastStep_of_dirs (p : Path) (slot : Slot) (h : t.lastStep p = .ok slot) :
    ∃ inside, t'.lastStep p = .ok ⟨slot.above, inside, slot.name⟩ ∧
      t'.node? slot.place = (inside.find? slot.name).map Item.node := by
  rcases lastStep_eq_ok t p slot h with ⟨husable, s, hwalk, hs, habove, hname⟩
  rcases walk_mirrors hdirs _ t.top t'.top s (.top t t') hwalk ⟨slot.inside, hs⟩ with
    ⟨s', hwalk', hmirrors⟩
  rcases hmirrors.folder with ⟨inside, hs'⟩
  refine ⟨inside, ?_, ?_⟩
  · rw [lastStep_of_walk t' p s' inside husable hwalk' hs', hmirrors.place_eq, habove, hname]
  · unfold Slot.place
    rw [habove, ← hmirrors.place_eq, node?_below t' s' inside slot.name hmirrors.holds' hs']

end FileTree

end SourceMarkers
