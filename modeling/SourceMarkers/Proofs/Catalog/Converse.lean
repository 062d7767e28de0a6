import SourceMarkers.Proofs.Catalog.Operations
import SourceMarkers.Proofs.Catalog.RoundTrip
import SourceMarkers.Proofs.Marker.Converse

/-!
# Which catalogs come back

A catalog that operations have made, with whatever paths were put into it, is
written and read without a fault and without a warning. What comes back has the
same sets with the same markers. Only the paths may be others: the catalogs that
come back as they were are those whose paths are clean.

This is about catalogs in memory. In a catalog that was read, or whose sets were,
all paths are clean, and so it always comes back.

## Main definitions

* `Catalog.withoutPaths`: All but the paths.

## Theorems

* `Catalog.agrees_reread_iff`: The catalogs that come back.
* `Catalog.reread_run`: Reading the document of any catalog.
-/

namespace SourceMarkers

open Json (Value)

namespace Catalog

/-- The catalog with empty paths in place of its own. -/
def withoutPaths (c : Catalog) : Catalog := ⟨c.active, c.sets.map MarkerSet.withoutPaths⟩

theorem withoutPaths_reread (s : Shorthand) (c : Catalog) :
    (c.reread s).withoutPaths = c.withoutPaths := by
  rw [withoutPaths, reread, List.map_map]
  have hsets : MarkerSet.withoutPaths ∘ MarkerSet.reread s = MarkerSet.withoutPaths :=
    funext fun set => set.withoutPaths_reread s
  rw [hsets, withoutPaths]

/-- What comes back of a catalog agrees with it when all paths in it are clean,
    and there is no empty base path. -/
theorem agrees_reread_iff (s : Shorthand) (c : Catalog) (hs : s.ProperHome) :
    (c.reread s).Agrees c ↔
      ∀ set ∈ c.sets,
        (∀ base, set.basePath = some base → base.octets ≠ [] ∧ s.Clean base) ∧
          ∀ m ∈ set.markers, s.Clean m.path := by
  rw [Agrees, reread, Pointwise.map_self_iff]
  refine (and_iff_right rfl).trans (forall₂_congr fun set _ => ?_)
  exact set.agrees_reread_iff s hs

/-- Whatever was put into a catalog, its document is read, and nothing is left
    out. A catalog that was empty then has the same sets in the same order, the
    same markers in them, base paths where there were some, and the same active
    name. It agrees with the original if and only if each base path is not empty
    and all paths are clean. -/
theorem reread_run (ops : List Operation) (s : Shorthand) (hs : s.ProperHome) :
    let c := empty.run ops
    let doc := c.toJson s
    let copy := empty.apply (.load s doc)
    ofDocument s doc = .ok ⟨copy,
        [⟨.debug, s!"Loaded {c.sets.length} marker sets (active: '{c.active}')"⟩]⟩ ∧
      copy.withoutPaths = c.withoutPaths ∧
      (copy.Agrees c ↔
        ∀ set ∈ c.sets,
          (∀ base, set.basePath = some base → base.octets ≠ [] ∧ s.Clean base) ∧
            ∀ m ∈ set.markers, s.Clean m.path) := by
  intro c doc copy
  have hread := ofDocument_toJson s c (uniqueNames_run ops)
  have hcopy : copy = c.reread s := by
    show apply empty (.load s (c.toJson s)) = c.reread s
    rw [apply, hread]
  rw [hcopy]
  exact ⟨hread, withoutPaths_reread s c, agrees_reread_iff s c hs⟩

/-- A relative path into a directory named `~` comes back as a path below the
    home directory. A path that is there comes back as it was. -/
theorem reread_run_tilde :
    let s : Shorthand := .mk (some (.ofString "/home/u"))
    let ops (path : String) : List Operation :=
      [.put ⟨"lint", none, [⟨.warning, .ofString path, 3, -1, "unused", true⟩]⟩]
    let back (path : String) := empty.apply (.load s ((empty.run (ops path)).toJson s))
    s.ProperHome ∧ ¬ (back "~/p").Agrees (empty.run (ops "~/p")) ∧
      (back "/home/u/p").Agrees (empty.run (ops "/home/u/p")) := by
  intro s ops back
  have hs : s.ProperHome := by
    intro home hhome
    rw [← Option.some.inj hhome]
    decide
  rcases reread_run (ops "~/p") s hs with ⟨_, _, houtside⟩
  rcases reread_run (ops "/home/u/p") s hs with ⟨_, _, hbelow⟩
  refine ⟨hs, fun h => ?_, hbelow.mpr fun set hset => ?_⟩
  · rcases houtside.mp h _ List.mem_cons_self with ⟨_, hmarkers⟩
    cases hmarkers _ List.mem_cons_self with
    | below home rest hhome hrest _ =>
      have hnone : (Path.ofString "~/p").stripPrefix? (.ofString "/home/u") = none := by decide
      rw [← Option.some.inj hhome] at hrest
      exact absurd (hnone.symm.trans hrest) (Option.some_ne_none rest).symm
    | outside _ _ hplain =>
      -- It is a text that looks short.
      refine hplain.elim (Option.some_ne_none _) fun htilde => htilde (Or.inr ⟨['p'], ?_⟩)
      rw [Shorthand.toStringLossy_ofString]
      rfl
  · rw [List.mem_singleton.mp hset]
    refine ⟨fun base hbase => absurd hbase (Option.some_ne_none base).symm, fun m hm => ?_⟩
    rw [List.mem_singleton.mp hm]
    exact .below _ (.ofString "p") rfl (by decide) (Path.isText_ofString "p")

end Catalog

end SourceMarkers
