import SourceMarkers.Proofs.Files.Walk
import SourceMarkers.Proofs.Path.Pieces

/-!
# Files that were written

A file that was written can be read, and can be written again: its path leads
to the same slot, which now holds a file. A directory that was made is there,
and making it again changes nothing. None of this is disturbed by writing
another file, as that only ever puts a file where no directory stands.

## Theorems

* `FileTree.dirs_setNode`: Directories stay when a node is put elsewhere.
* `FileTree.read_of_write`: A written file has its content.
* `FileTree.exists?_of_read`: A file that has content is there.
* `FileTree.write_of_write`: It can be written again.
* `FileTree.createDirectories_again`: Directories that were made are not made
  again, as long as they stay.
-/

namespace SourceMarkers

namespace FileTree

/-- A node that is put where no directory stands takes no directory away. -/
theorem dirs_setNode (t : FileTree) (place : Place) (node : Node)
    (hfree : t.node? place ≠ some .directory) (other : Place)
    (h : t.node? other = some .directory) :
    (t.setNode place node).node? other = some .directory := by
  have hne : other ≠ place := by
    intro heq
    rw [heq] at h
    exact hfree h
  rw [node?_setNode_of_ne t place other node hne hfree]
  exact h

/-! ## Writing -/

/-- A path without a slash at its end ends in its last name. -/
theorem named_eq_pieces (p : Path) (hne : p.octets ≠ [])
    (hslash : p.octets.getLast? ≠ some Path.slash) : named p = p.pieces := by
  rcases pieces_eq_named_append p with ⟨idle, hpieces, hidle⟩
  rcases List.eq_nil_or_concat idle with hnil | ⟨more, last, hconcat⟩
  · rw [hpieces, hnil, List.append_nil]
  -- An idle piece at the end would be a slash at the end.
  exfalso
  rw [List.concat_eq_append] at hconcat
  have hlast : last = [] := by
    refine hidle last ?_
    rw [hconcat]
    exact List.mem_append_right more List.mem_cons_self
  rw [hconcat, hlast, ← List.append_assoc] at hpieces
  by_cases hfront : named p ++ more = []
  · rw [hfront] at hpieces
    exact hne (Path.octets_eq_nil_of_pieces p hpieces)
  · -- The path is the one in front of the last slash, with that slash.
    have hfree : ∀ piece ∈ named p ++ more, Path.slash ∉ piece := by
      intro piece hpiece
      refine Path.slash_not_mem_of_mem_pieces p piece ?_
      rw [hpieces]
      exact List.mem_append_left _ hpiece
    have hadd : (Path.ofPieces (named p ++ more)).addSlash = p := by
      rw [← Path.ofPieces_pieces (Path.addSlash _), Path.pieces_addSlash,
        Path.pieces_ofPieces _ hfront hfree, ← hpieces, Path.ofPieces_pieces]
    rw [← hadd] at hslash
    exact hslash List.getLast?_concat

/-- What writing to a path needs. -/
structure Writes (t : FileTree) (p : Path) (slot : Slot) : Prop where
  step : t.lastStep p = .ok slot
  noSlash : p.octets.getLast? ≠ some Path.slash
  noDots : isDots slot.name = false
  short : ¬ nameLimit < slot.name.length
  free : t.node? slot.place ≠ some .directory

theorem writes_of_target (t : FileTree) (p : Path) (place : Place) (content : List UInt8)
    (h : t.target p = .ok (place, content)) : ∃ slot, t.Writes p slot ∧ place = slot.place := by
  unfold target at h
  cases hstep : t.lastStep p with
  | error f =>
    rw [hstep] at h
    exact absurd h (by simp only [bind, Except.bind, reduceCtorEq, not_false_eq_true])
  | ok slot =>
    have hnode := (node?_slot t p slot hstep).2
    rw [hstep] at h
    simp only [bind, Except.bind] at h
    -- The checks come one after the other, and each of them was passed.
    split at h
    · exact absurd h (by simp only [reduceCtorEq, not_false_eq_true])
    next hname =>
    rw [not_or, Bool.not_eq_true] at hname
    split at h
    · exact absurd h (by simp only [reduceCtorEq, not_false_eq_true])
    next hlimit =>
    refine ⟨slot, ⟨hstep, hname.1, hname.2, hlimit, ?_⟩, ?_⟩
    · -- A directory in the slot would have been refused.
      intro hdir
      rw [hnode, Option.map_eq_some_iff] at hdir
      rcases hdir with ⟨item, hitem, hfolder⟩
      rw [hitem] at h
      cases item with
      | file content => exact absurd hfolder (by simp only [Item.node, reduceCtorEq,
          not_false_eq_true])
      | folder inside => exact absurd h (by simp only [reduceCtorEq, not_false_eq_true])
    · split at h
      · exact absurd h (by simp only [reduceCtorEq, not_false_eq_true])
      · exact (Prod.mk.inj (Except.ok.inj h)).1.symm
      · exact (Prod.mk.inj (Except.ok.inj h)).1.symm

theorem target_of_writes (t : FileTree) (p : Path) (slot : Slot) (h : t.Writes p slot) :
    ∃ content, t.target p = .ok (slot.place, content) := by
  have hnode := (node?_slot t p slot h.step).2
  have hname : ¬ (p.octets.getLast? = some Path.slash ∨ isDots slot.name = true) := by
    rw [not_or, Bool.not_eq_true]
    exact ⟨h.noSlash, h.noDots⟩
  unfold target
  rw [h.step]
  simp only [bind, Except.bind, if_neg hname, if_neg h.short]
  cases hitem : slot.item? with
  | none => exact ⟨[], rfl⟩
  | some item =>
    cases item with
    | file content => exact ⟨content, rfl⟩
    | folder inside =>
      rw [hitem] at hnode
      exact absurd hnode h.free

/-- Writing succeeds just when there is a slot for it, and fills that slot. -/
theorem write_eq_ok (t : FileTree) (p : Path) (content : List UInt8) (t' : FileTree) :
    t.write p content = .ok t' ↔
      ∃ slot, t.Writes p slot ∧ t' = t.setNode slot.place (.file content) := by
  unfold write
  constructor
  · intro h
    cases htarget : t.target p with
    | error f =>
      rw [htarget] at h
      exact absurd h (by simp only [Except.map, reduceCtorEq, not_false_eq_true])
    | ok found =>
      rcases found with ⟨place, old⟩
      rcases writes_of_target t p place old htarget with ⟨slot, hslot, hplace⟩
      rw [htarget, hplace] at h
      exact ⟨slot, hslot, (Except.ok.inj h).symm⟩
  · rintro ⟨slot, hslot, rfl⟩
    rcases target_of_writes t p slot hslot with ⟨old, htarget⟩
    rw [htarget]
    rfl

/-- The slot of a written file holds the file, and can be written again. -/
theorem writes_of_write (t : FileTree) (p : Path) (slot : Slot) (content : List UInt8)
    (h : t.Writes p slot) :
    ∃ slot', (t.setNode slot.place (.file content)).Writes p slot' ∧
      slot'.item? = some (.file content) := by
  rcases lastStep_of_dirs (dirs_setNode t slot.place (.file content) h.free) p slot h.step with
    ⟨inside, hstep, hnode⟩
  -- The step leads to the same slot, and what stands there is the new file.
  have hself : (t.setNode slot.place (.file content)).node? slot.place = some (.file content) :=
    node?_setNode_self t slot.above slot.name (.file content) (node?_slot t p slot h.step).1
  rw [hself] at hnode
  refine ⟨_, ⟨hstep, h.noSlash, h.noDots, h.short, ?_⟩, ?_⟩
  · show (t.setNode slot.place (.file content)).node? slot.place ≠ some .directory
    rw [hself]
    simp only [ne_eq, Option.some.injEq, reduceCtorEq, not_false_eq_true]
  · rcases Option.map_eq_some_iff.mp hnode.symm with ⟨item, hitem, hfile⟩
    cases item with
    | folder below => exact absurd hfile (by simp only [Item.node, reduceCtorEq,
        not_false_eq_true])
    | file held =>
      rw [Item.node, Node.file.injEq] at hfile
      rw [← hfile]
      exact hitem

theorem follow_of_write (t t' : FileTree) (p : Path) (content : List UInt8)
    (h : t.write p content = .ok t') : ∃ s, t'.follow p = .ok s ∧ s.item = .file content := by
  rcases (write_eq_ok t p content t').mp h with ⟨slot, hslot, rfl⟩
  rcases writes_of_write t p slot content hslot with ⟨slot', hslot', hitem⟩
  rcases walk_named _ p slot' _ hslot'.step hslot'.noDots hslot'.short hitem with ⟨s, hwalk, hs⟩
  rcases lastStep_eq_ok _ p slot' hslot'.step with ⟨husable, _⟩
  -- An empty path is refused, so the walk over the names is the whole walk.
  have hne : p.octets ≠ [] := by
    intro hnil
    unfold usablePieces at husable
    rw [hnil, if_neg List.not_mem_nil, if_pos rfl] at husable
    exact absurd husable (by simp only [reduceCtorEq, not_false_eq_true])
  rw [named_eq_pieces p hne hslot'.noSlash] at hwalk
  exact ⟨s, (follow_eq_ok _ p s).mpr ⟨husable, hwalk⟩, hs⟩

/-- A written file has its content. -/
theorem read_of_write (t t' : FileTree) (p : Path) (content : List UInt8)
    (h : t.write p content = .ok t') : t'.read p = .ok content := by
  rcases follow_of_write t t' p content h with ⟨s, hfollow, hs⟩
  unfold read
  simp only [hfollow, bind, Except.bind, hs]

/-- What can be read is there. -/
theorem exists?_of_read (t : FileTree) (p : Path) (content : List UInt8)
    (h : t.read p = .ok content) : t.exists? p = true := by
  unfold read at h
  unfold exists?
  cases hfollow : t.follow p with
  | error f =>
    rw [hfollow] at h
    exact absurd h (by simp only [bind, Except.bind, reduceCtorEq, not_false_eq_true])
  | ok s => rfl

/-- A written file can be written again. -/
theorem write_of_write (t t' : FileTree) (p : Path) (content more : List UInt8)
    (h : t.write p content = .ok t') : ∃ t'', t'.write p more = .ok t'' := by
  rcases (write_eq_ok t p content t').mp h with ⟨slot, hslot, rfl⟩
  rcases writes_of_write t p slot content hslot with ⟨slot', hslot', _⟩
  exact ⟨_, (write_eq_ok _ p more _).mpr ⟨slot', hslot', rfl⟩⟩

/-- Writing takes no directory away. -/
theorem dirs_of_write (t t' : FileTree) (p : Path) (content : List UInt8)
    (h : t.write p content = .ok t') (place : Place) (hplace : t.node? place = some .directory) :
    t'.node? place = some .directory := by
  rcases (write_eq_ok t p content t').mp h with ⟨slot, hslot, rfl⟩
  exact dirs_setNode t slot.place (.file content) hslot.free place hplace

/-! ## Making directories -/

/-- A directory that is there is not made. -/
theorem createDirectory_of_isDirectory (t : FileTree) (p : Path) (h : t.isDirectory p = true) :
    t.createDirectory p = .error .alreadyThere := by
  rcases (isDirectory_iff t p).mp h with ⟨husable, r, inside, hwalk, _⟩
  rcases pieces_eq_named_append p with ⟨idle, hpieces, _⟩
  rw [hpieces, walk_append] at hwalk
  cases hnamed : walk t.top (named p) with
  | error f =>
    rw [hnamed] at hwalk
    exact absurd hwalk (by simp only [Except.bind, reduceCtorEq, not_false_eq_true])
  | ok q =>
    -- The walk to the last name starts in a directory, or there is no name.
    have hfront : ∃ s below, walk t.top (named p).dropLast = .ok s ∧ s.item = .folder below ∧
        ∀ name, named p = (named p).dropLast ++ [name] → walk s [name] = .ok q := by
      rcases named_cases p with hnil | ⟨name, hname, _⟩
      · refine ⟨t.top, t.root, by rw [hnil]; rfl, rfl, fun name hname => ?_⟩
        rw [hnil] at hname
        exact absurd hname (by simp only [List.dropLast_nil, List.nil_append, reduceCtorEq,
          not_false_eq_true])
      · rw [hname, walk_append] at hnamed
        cases hs : walk t.top (named p).dropLast with
        | error f =>
          rw [hs] at hnamed
          exact absurd hnamed (by simp only [Except.bind, reduceCtorEq, not_false_eq_true])
        | ok s =>
          rw [hs] at hnamed
          rcases folder_of_walk_cons s q name [] hnamed with ⟨below, hbelow⟩
          refine ⟨s, below, rfl, hbelow, fun other hother => ?_⟩
          have heq : [name] = [other] := List.append_cancel_left (hname.symm.trans hother)
          rw [← heq]
          exact hnamed
    rcases hfront with ⟨s, below, hs, hbelow, hstep⟩
    unfold createDirectory
    rw [lastStep_of_walk t p s below husable hs hbelow]
    simp only [bind, Except.bind]
    by_cases hdots : isDots ((named p).getLast?.getD [Path.dot]) = true
    · -- Dots are always taken to be there.
      rw [if_pos hdots]
    · -- A name is looked up, and the walk has found it.
      rw [if_neg hdots]
      rw [Bool.not_eq_true] at hdots
      rcases named_eq_append p _ rfl hdots with ⟨happend, hidle, hup⟩
      rcases find?_of_walk_name s q below _ hbelow hidle hup (hstep _ happend) with ⟨hlimit, hfind⟩
      rw [if_neg hlimit]
      simp only [Slot.item?, hfind, Option.isSome_some, if_true]

/-- A directory that was made is there. -/
theorem isDirectory_of_createDirectory (t t' : FileTree) (p : Path)
    (h : t.createDirectory p = .ok t') : t'.isDirectory p = true := by
  unfold createDirectory at h
  cases hstep : t.lastStep p with
  | error f =>
    rw [hstep] at h
    exact absurd h (by simp only [bind, Except.bind, reduceCtorEq, not_false_eq_true])
  | ok slot =>
    rw [hstep] at h
    simp only [bind, Except.bind] at h
    split at h
    · exact absurd h (by simp only [reduceCtorEq, not_false_eq_true])
    next hdots =>
    split at h
    · exact absurd h (by simp only [reduceCtorEq, not_false_eq_true])
    next hlimit =>
    split at h
    · exact absurd h (by simp only [reduceCtorEq, not_false_eq_true])
    next hitem =>
    -- Nothing stood in the slot, so putting a directory there takes none away.
    rw [Bool.not_eq_true] at hdots hitem
    rw [← Except.ok.inj h]
    rcases node?_slot t p slot hstep with ⟨habove, hnode⟩
    rw [Option.isSome_eq_false_iff, Option.isNone_iff_eq_none] at hitem
    have hfree : t.node? slot.place ≠ some .directory := by
      rw [hnode, hitem]
      simp only [Option.map_none, ne_eq, reduceCtorEq, not_false_eq_true]
    rcases lastStep_of_dirs (dirs_setNode t slot.place .directory hfree) p slot hstep with
      ⟨inside, hstep', hnode'⟩
    have hself : (t.setNode slot.place .directory).node? slot.place = some .directory :=
      node?_setNode_self t slot.above slot.name .directory habove
    rw [hself] at hnode'
    rcases Option.map_eq_some_iff.mp hnode'.symm with ⟨item, hfind, hfolder⟩
    cases item with
    | file content => exact absurd hfolder (by simp only [Item.node, reduceCtorEq,
        not_false_eq_true])
    | folder made =>
      -- The walk goes to the new directory, and slashes behind it lead nowhere.
      rcases walk_named _ p _ (.folder made) hstep' hdots hlimit hfind with ⟨s, hwalk, hs⟩
      rcases pieces_eq_named_append p with ⟨idle, hpieces, hidle⟩
      rcases lastStep_eq_ok t p slot hstep with ⟨husable, _⟩
      refine (isDirectory_iff _ p).mpr ⟨husable, s, made, ?_, hs⟩
      rw [hpieces, walk_append, hwalk]
      exact walk_idle s made hs idle fun piece hpiece => by rw [hidle piece hpiece]; rfl

/-- After directories were made, the directory is there, or it is where
    relative paths start. -/
theorem isDirectory_of_createUpTo (bound : Nat) (t t' : FileTree) (p : Path)
    (h : createUpTo bound t p = (.ok (), t')) : p.octets = [] ∨ t'.isDirectory p = true := by
  -- A refusal counts as success only when the directory is there.
  have hthere : ∀ (e : FileFault) (t : FileTree),
      ((if t.isDirectory p then .ok () else .error e, t) : Except FileFault Unit × FileTree) =
        (.ok (), t') → t'.isDirectory p = true := by
    intro e t hdone
    rw [Prod.mk.injEq] at hdone
    rw [← hdone.2]
    by_cases hdir : t.isDirectory p = true
    · exact hdir
    · rw [if_neg hdir] at hdone
      exact absurd hdone.1 (by simp only [reduceCtorEq, not_false_eq_true])
  cases bound with
  | zero => exact absurd h (by simp only [createUpTo, Prod.mk.injEq, reduceCtorEq, false_and,
      not_false_eq_true])
  | succ bound =>
    unfold createUpTo at h
    split at h
    · next hempty => exact Or.inl hempty
    · refine Or.inr ?_
      split at h
      · next made hmade =>
        rw [← (Prod.mk.inj h).2]
        exact isDirectory_of_createDirectory t made p hmade
      · -- The directories above were missing, and it was tried again after them.
        split at h
        · exact absurd h (by simp only [Prod.mk.injEq, reduceCtorEq, false_and,
            not_false_eq_true])
        · split at h
          · exact absurd h (by simp only [Prod.mk.injEq, reduceCtorEq, false_and,
              not_false_eq_true])
          · split at h
            · next made hmade =>
              rw [← (Prod.mk.inj h).2]
              exact isDirectory_of_createDirectory _ made p hmade
            · exact hthere _ _ h
      · exact hthere _ _ h

/-- Directories that were made are not made again, as long as they stay. -/
theorem createDirectories_again (t made t' : FileTree) (p : Path)
    (h : t.createDirectories p = (.ok (), made))
    (hdirs : ∀ place, made.node? place = some .directory → t'.node? place = some .directory) :
    t'.createDirectories p = (.ok (), t') := by
  unfold createDirectories createUpTo
  by_cases hempty : p.octets = []
  · rw [if_pos hempty]
  · rw [if_neg hempty]
    rcases isDirectory_of_createUpTo _ t made p h with hnil | hdir
    · exact absurd hnil hempty
    · have hdir' : t'.isDirectory p = true := isDirectory_of_dirs hdirs p hdir
      rw [createDirectory_of_isDirectory t' p hdir']
      simp only [hdir', if_true]

end FileTree

end SourceMarkers
