import Mathlib.Data.Option.Basic
import SourceMarkers.Proofs.Catalog.Converse

/-!
# Catalogs that move to another home

A document is written with one home directory and read with another. The paths
below the first home directory are found below the second one, with the same
rest, and all other paths stay where they are, also those that happen to lie
below the second home directory. Everything else comes back as it was.

This is a statement about components. A home directory takes off what has its
components, so `/home/u` is none of `/home/user`, and whether it ends with a
slash does not matter. What is left below it is relative and trimmed, and it
joins to any home directory that is not empty without a change; an empty one
would have no components to stand in front. The texts in between are read as
they were written because an absolute path never looks short.

## Main definitions

* `Path.Moved`: Where a path is found with the other home directory.
* `Path.Portable`: An absolute path that is a text.
* `Catalog.Moved`: The catalog that is read.

## Theorems

* `Path.moved_join`, `Path.moved_outside`: The two ways to move.
* `Shorthand.clean_of_portable`, `MarkerSet.clean_of_portable`: What is portable
  comes back with any home directory.
* `Shorthand.moved_expand_shorten`, `MarkerSet.moved_expand_baseText`: A path
  and a base path that are written and read.
* `Catalog.ofDocument_moved`: Reading a document with another home directory.
-/

namespace SourceMarkers

/-! ## Paths -/

namespace Path

/-- The path is absolute, and it is a text. -/
def Portable (p : Path) : Prop := p.IsText ∧ p.isAbsolute = true

theorem portable_ofString (text : String) (h : (ofString text).isAbsolute = true) :
    (ofString text).Portable := ⟨isText_ofString text, h⟩

/-- Where a path is found when one home directory takes the place of another. -/
structure Moved (old new : Path) (result p : Path) : Prop where
  /-- Below the old home directory it goes below the new one. -/
  below : ∀ rest, p.components = old.components ++ rest →
    result.components = new.components ++ rest
  /-- Anywhere else it stays. -/
  outside : ¬ old.components <+: p.components → result.Same p

/-- It does not matter how the path is spelled. -/
theorem Moved.of_same {old new a b p : Path} (h : Moved old new a p) (hsame : b.Same a) :
    Moved old new b p :=
  ⟨fun rest hrest => hsame.trans (h.below rest hrest), fun hnone => hsame.trans (h.outside hnone)⟩

variable (old new : Path)

/-- What is left below the old home directory is joined to the new one. -/
theorem moved_join (p rest tail : Path) (hold : old.octets ≠ []) (hnew : new.octets ≠ [])
    (hrest : p.stripPrefix? old = some rest) (htail : tail.isAbsolute = false)
    (hsame : tail.pieces.filterMap component? = rest.pieces.filterMap component?) :
    Moved old new (new.join tail) p := by
  rcases stripPrefix?_eq_some p old rest hold hrest with ⟨_, _, hcomponents⟩
  constructor
  · intro left hleft
    -- There is only one rest.
    have heq : left = rest.pieces.filterMap component? := by
      rw [hcomponents, List.append_cancel_left_eq] at hleft
      exact hleft.symm
    rw [components_join new tail hnew htail, hsame, heq]
  · intro hnone
    exact absurd ⟨_, hcomponents.symm⟩ hnone

/-- What is not below the old home directory stays. -/
theorem moved_outside (p result : Path) (hnone : p.stripPrefix? old = none)
    (hsame : result.Same p) : Moved old new result p := by
  have hprefix : ¬ old.components <+: p.components := by
    rw [← stripPrefix?_isSome_iff, hnone]
    exact Bool.false_ne_true
  exact ⟨fun rest hrest => absurd ⟨rest, hrest.symm⟩ hprefix, fun _ => hsame⟩

/-- Nothing that is joined to a home directory gives the home directory. -/
theorem same_join_empty (home rest : Path) (hhome : home.octets ≠ []) (hrest : rest.octets = []) :
    (home.join rest).Same home := by
  have hrelative : rest.isAbsolute = false := by rw [isAbsolute, hrest]; rfl
  rw [Same, components_join home rest hhome hrelative, pieces_of_octets_nil rest hrest]
  exact List.append_nil _

end Path

/-- A portable path comes back from its text, whatever the home directory is. -/
theorem Shorthand.clean_of_portable (s : Shorthand) (p : Path) (hp : p.Portable) : s.Clean p := by
  rcases hp with ⟨htext, habsolute⟩
  cases hstrip : s.home?.bind p.stripPrefix? with
  | none => exact .outside hstrip htext (Or.inr (not_isTilde_of_isAbsolute p htext habsolute))
  | some rest =>
    rcases Option.bind_eq_some_iff.mp hstrip with ⟨home, hhome, hrest⟩
    exact .below home rest hhome hrest (Path.isText_of_stripPrefix? p home rest htext hrest)

section Homes

variable (old new : Path) (hold : old.octets ≠ []) (hnew : new.octets ≠ [])

include hold hnew

/-- A portable path that is written with one home directory and read with
    another has moved. -/
theorem Shorthand.moved_expand_shorten (p : Path) (hp : p.Portable) :
    Path.Moved old new (expand ⟨some new⟩ (shorten ⟨some old⟩ p)) p := by
  rcases hp with ⟨htext, habsolute⟩
  cases hstrip : p.stripPrefix? old with
  | none =>
    have hplain := not_isTilde_of_isAbsolute p htext habsolute
    rw [shorten_outside ⟨some old⟩ p hstrip, expand_plain ⟨some new⟩ _ (Or.inr hplain),
      Path.ofString_toStringLossy p htext]
    exact Path.moved_outside old new p p hstrip rfl
  | some rest =>
    have hrest := Path.isText_of_stripPrefix? p old rest htext hstrip
    have hrelative := (Path.stripPrefix?_eq_some p old rest hold hstrip).1
    have hjoin := Path.moved_join old new p rest rest hold hnew hstrip hrelative rfl
    rw [shorten_below ⟨some old⟩ old p rest rfl hstrip]
    by_cases hempty : rest.octets = []
    · -- The tilde alone is the new home directory.
      have hsame := Path.same_join_empty new rest hnew hempty
      rw [if_pos hempty, expand_home ⟨some new⟩ new rfl]
      exact hjoin.of_same hsame.symm
    · rw [if_neg hempty, expand_below ⟨some new⟩ new _ rfl, Path.ofString_toStringLossy rest hrest]
      exact hjoin

/-- A path with the home directory in front of it in letters only is not below
    it. -/
example :
    let written (path : String) := Shorthand.shorten ⟨some (.ofString "/home/u")⟩ (.ofString path)
    let read (text : String) := Shorthand.expand ⟨some (.ofString "/Users/v/")⟩ text
    read (written "/home/u/p/a.R") = .ofString "/Users/v/p/a.R" ∧
      read (written "/home/user/b.R") = .ofString "/home/user/b.R" := by
  decide

/-- So has a base path, whose text ends with a slash. -/
theorem MarkerSet.moved_expand_baseText (base : Path) (hbase : base.Portable) :
    Path.Moved old new (Shorthand.expand ⟨some new⟩ (baseText ⟨some old⟩ base)) base := by
  rcases hbase with ⟨htext, habsolute⟩
  cases hstrip : base.stripPrefix? old with
  | none =>
    have hplain := Shorthand.not_isTilde_of_isAbsolute base htext habsolute
    have hne := Path.octets_ne_nil_of_isAbsolute base habsolute
    have hread := baseText_outside ⟨some old⟩ ⟨some new⟩ base hstrip htext (Or.inr hplain) hne
    exact Path.moved_outside old new base _ hstrip hread.1
  | some rest =>
    have hrest := Path.isText_of_stripPrefix? base old rest htext hstrip
    have hrelative := (Path.stripPrefix?_eq_some base old rest hold hstrip).1
    rcases baseText_below ⟨some old⟩ old base rest rfl hstrip hrest with
      ⟨text, hwritten, heq | ⟨hne, heq⟩⟩
    · rw [hwritten, Shorthand.expand_below ⟨some new⟩ new text rfl, heq]
      exact Path.moved_join old new base rest rest hold hnew hstrip hrelative rfl
    · -- The slash behind the rest has no component.
      have hslash := (Path.isAbsolute_addSlash rest hne).trans hrelative
      have hsame : rest.addSlash.pieces.filterMap Path.component? =
          rest.pieces.filterMap Path.component? := by
        rw [Path.pieces_addSlash, List.filterMap_append]
        exact List.append_nil _
      rw [hwritten, Shorthand.expand_below ⟨some new⟩ new text rfl, heq]
      exact Path.moved_join old new base rest rest.addSlash hold hnew hstrip hslash hsame

end Homes

/-! ## Markers, sets and catalogs -/

/-- The marker differs in its path only, and that has moved. -/
def Marker.Moved (old new : Path) (result m : Marker) : Prop :=
  result.withoutPath = m.withoutPath ∧ Path.Moved old new result.path m.path

/-- The paths of the set have moved; a base path is there if there was one. -/
def MarkerSet.Moved (old new : Path) (result set : MarkerSet) : Prop :=
  result.name = set.name ∧ Option.Rel (Path.Moved old new) result.basePath set.basePath ∧
    Pointwise (Marker.Moved old new) result.markers set.markers

/-- The paths of all sets have moved. -/
def Catalog.Moved (old new : Path) (result c : Catalog) : Prop :=
  result.active = c.active ∧ Pointwise (MarkerSet.Moved old new) result.sets c.sets

/-- All paths of the set are portable. -/
structure MarkerSet.Portable (set : MarkerSet) : Prop where
  markers : ∀ m ∈ set.markers, m.path.Portable
  base : ∀ base, set.basePath = some base → base.Portable

theorem MarkerSet.clean_of_portable (s : Shorthand) (set : MarkerSet) (hset : set.Portable) :
    set.Clean s := by
  refine ⟨fun m hm => s.clean_of_portable m.path (hset.markers m hm), fun base hbase => ?_⟩
  have hportable := hset.base base hbase
  exact ⟨s.clean_of_portable base hportable,
    fun _ => Path.octets_ne_nil_of_isAbsolute base hportable.2⟩

theorem MarkerSet.moved_carried (old new : Path) (hold : old.octets ≠ []) (hnew : new.octets ≠ [])
    (set : MarkerSet) (hset : set.Portable) :
    Moved old new (set.carried ⟨some old⟩ ⟨some new⟩) set := by
  refine ⟨rfl, ?_, Pointwise.map_self _ fun m hm => ⟨rfl, ?_⟩⟩
  · cases hbase : set.basePath with
    | none =>
      rw [carried, hbase]
      exact .none
    | some base =>
      rw [carried, hbase]
      exact .some (moved_expand_baseText old new hold hnew base (hset.base base hbase))
  · exact Shorthand.moved_expand_shorten old new hold hnew m.path (hset.markers m hm)

namespace Catalog

/-- The document of a catalog with unique names and portable paths is read with
    another home directory without a fault and without a warning, as the catalog
    with its paths moved. -/
theorem ofDocument_moved (old new : Path) (hold : old.octets ≠ []) (hnew : new.octets ≠ [])
    (c : Catalog) (hnames : c.UniqueNames) (hsets : ∀ set ∈ c.sets, set.Portable) :
    ∃ result,
      ofDocument ⟨some new⟩ (c.toJson ⟨some old⟩) = .ok ⟨result,
        [⟨.debug, s!"Loaded {c.sets.length} marker sets (active: '{c.active}')"⟩]⟩ ∧
      Moved old new result c := by
  refine ⟨c.carried ⟨some old⟩ ⟨some new⟩, ofDocument_toJson_carried _ _ c hnames, rfl, ?_⟩
  exact Pointwise.map_self c.sets fun set hset =>
    set.moved_carried old new hold hnew (hsets set hset)

/-- The files of one user, and one file of another, moved to a machine where
    homes lie elsewhere. -/
theorem ofDocument_moved_users :
    let old := Path.ofString "/home/u"
    let new := Path.ofString "/Users/v/"
    let c : Catalog := ⟨"lint", [⟨"lint", some old,
      [⟨.warning, .ofString "/home/u/p/a.R", 3, 1, "unused", true⟩,
        ⟨.error, .ofString "/home/user/b.R", 5, 2, "unknown", true⟩]⟩]⟩
    old.octets ≠ [] ∧ new.octets ≠ [] ∧ c.UniqueNames ∧ (∀ set ∈ c.sets, set.Portable) ∧
      ∃ result,
        ofDocument ⟨some new⟩ (c.toJson ⟨some old⟩) = .ok ⟨result,
          [⟨.debug, s!"Loaded {c.sets.length} marker sets (active: '{c.active}')"⟩]⟩ ∧
        Moved old new result c := by
  intro old new c
  have hold : old.octets ≠ [] := by decide
  have hnew : new.octets ≠ [] := by decide
  have hnames : c.UniqueNames := List.nodup_singleton "lint"
  have hsets : ∀ set ∈ c.sets, set.Portable := by
    intro set hset
    rw [List.mem_singleton.mp hset]
    constructor
    · simp only [List.forall_mem_cons]
      exact ⟨Path.portable_ofString "/home/u/p/a.R" (by decide),
        Path.portable_ofString "/home/user/b.R" (by decide), List.forall_mem_nil _⟩
    · intro base hbase
      rw [← Option.some.inj hbase]
      exact Path.portable_ofString "/home/u" (by decide)
  exact ⟨hold, hnew, hnames, hsets, ofDocument_moved old new hold hnew c hnames hsets⟩

end Catalog

end SourceMarkers
