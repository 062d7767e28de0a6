import SourceMarkers.Proofs.Marker.RoundTrip
import SourceMarkers.Proofs.Path.Converse

/-!
# Which markers come back

A marker or a set that is written and read differs from the original in its
paths at most. It agrees with it when all its paths are clean, and only then.
For a base path there is one more condition: it is not empty, as it would come
back as the root.

## Main definitions

* `Marker.withoutPath`, `MarkerSet.withoutPaths`: All but the paths.

## Theorems

* `MarkerSet.withoutPaths_reread`: What comes back is the same but for the paths.
* `MarkerSet.same_expand_baseText_iff`: The base paths that come back.
* `MarkerSet.agrees_reread_iff`: The sets that come back.
-/

namespace SourceMarkers

namespace Marker

/-- The marker with an empty path in place of its own. -/
def withoutPath (m : Marker) : Marker := { m with path := ⟨[]⟩ }

/-- What comes back of a marker agrees with it when its path is clean. -/
theorem agrees_reread_iff (s : Shorthand) (m : Marker) (hs : s.ProperHome) :
    (m.reread s).Agrees m ↔ s.Clean m.path := by
  rw [← Shorthand.same_expand_shorten_iff s m.path hs]
  exact ⟨fun h => h.2.1, fun h => ⟨rfl, h, rfl, rfl, rfl, rfl⟩⟩

end Marker

namespace MarkerSet

/-- The set with empty paths in place of its own. A base path that is not there
    is not put there. -/
def withoutPaths (set : MarkerSet) : MarkerSet where
  name := set.name
  basePath := set.basePath.map fun _ => ⟨[]⟩
  markers := set.markers.map Marker.withoutPath

theorem withoutPaths_reread (s : Shorthand) (set : MarkerSet) :
    (set.reread s).withoutPaths = set.withoutPaths := by
  rw [withoutPaths, reread, Option.map_map, List.map_map]
  rfl

/-! ## Base paths -/

/-- A base path whose text looks short is written as something below the home
    directory. -/
theorem baseText_of_isTilde (s : Shorthand) (base : Path)
    (h : Shorthand.IsTilde (s.shorten base)) : ∃ text, baseText s base = "~/" ++ text := by
  rw [baseText_eq]
  rcases h with htilde | ⟨rest, hrest⟩
  · -- A tilde alone gets its slash.
    rw [htilde, if_neg (by decide)]
    exact ⟨"", rfl⟩
  · rw [Shorthand.eq_below_of_toList _ rest hrest]
    split
    · exact ⟨_, rfl⟩
    · exact ⟨(String.ofList rest).push '/', Shorthand.push_below _⟩

/-- Nothing that is read from the text of a base path is empty. -/
theorem octets_ne_nil_of_same (s : Shorthand) (base : Path) (hs : s.ProperHome)
    (h : (s.expand (baseText s base)).Same base) : base.octets ≠ [] := by
  intro hempty
  rw [Path.Same, (Path.components_eq_nil_iff base).mpr hempty] at h
  refine Shorthand.expand_octets_ne_nil s _ (baseText_ne_empty s base) ?_
    ((Path.components_eq_nil_iff _).mp h)
  -- The home directory has components, and the empty path has none.
  cases hhome : s.home? with
  | none => rfl
  | some home =>
    rw [Option.bind_some, ← Option.not_isSome_iff_eq_none, Path.stripPrefix?_isSome_iff, h,
      List.prefix_nil, Path.components_eq_nil_iff]
    exact hs home hhome

/-- A base path that its text gives back is clean. -/
theorem clean_of_same_base (s : Shorthand) (base : Path) (hs : s.ProperHome)
    (h : (s.expand (baseText s base)).Same base) : s.Clean base := by
  cases hstrip : s.home?.bind base.stripPrefix? with
  | none =>
    rcases Shorthand.isText_of_same_outside s base _ hs hstrip h with ⟨htext, hplain⟩
    refine .outside hstrip htext (hplain.imp_right fun hplain htilde => ?_)
    rcases hplain with hplain | habsolute
    · -- With a slash behind it, the text looks short still.
      rw [← Shorthand.shorten_outside s base hstrip] at htilde
      rcases baseText_of_isTilde s base htilde with ⟨text, hbase⟩
      exact hplain (Or.inr ⟨text.toList, by rw [hbase, Shorthand.toList_below]⟩)
    · exact Shorthand.not_isTilde_of_isAbsolute base htext habsolute htilde
  | some rest =>
    rcases Option.bind_eq_some_iff.mp hstrip with ⟨home, hhome, hrest⟩
    have htilde : Shorthand.IsTilde (s.shorten base) := by
      rw [Shorthand.shorten_below s home base rest hhome hrest]
      split
      · exact Or.inl rfl
      · exact Or.inr ⟨_, Shorthand.toList_below _⟩
    rcases baseText_of_isTilde s base htilde with ⟨text, hbase⟩
    rw [hbase] at h
    exact .below home rest hhome hrest
      (Shorthand.isText_of_same_below s home base rest text hs hhome hrest h)

/-- The base paths that their text gives back are the clean ones that are not
    empty. -/
theorem same_expand_baseText_iff (s : Shorthand) (base : Path) (hs : s.ProperHome) :
    (s.expand (baseText s base)).Same base ↔ base.octets ≠ [] ∧ s.Clean base :=
  ⟨fun h => ⟨octets_ne_nil_of_same s base hs h, clean_of_same_base s base hs h⟩,
    fun h => expand_baseText s base ⟨h.2, fun _ => h.1⟩⟩

/-! ## Sets -/

/-- What comes back of a set agrees with it when its paths are clean, and there
    is no empty base path. -/
theorem agrees_reread_iff (s : Shorthand) (set : MarkerSet) (hs : s.ProperHome) :
    (set.reread s).Agrees set ↔
      (∀ base, set.basePath = some base → base.octets ≠ [] ∧ s.Clean base) ∧
        ∀ m ∈ set.markers, s.Clean m.path := by
  have hmarkers : Pointwise Marker.Agrees (set.reread s).markers set.markers ↔
      ∀ m ∈ set.markers, s.Clean m.path := by
    rw [reread, Pointwise.map_self_iff]
    exact forall₂_congr fun m _ => m.agrees_reread_iff s hs
  have hbase : SameOptional (set.reread s).basePath set.basePath ↔
      ∀ base, set.basePath = some base → base.octets ≠ [] ∧ s.Clean base := by
    rw [reread]
    cases set.basePath with
    | none => exact ⟨fun _ base h => absurd h (Option.some_ne_none base).symm, fun _ => trivial⟩
    | some base =>
      rw [Option.map_some, SameOptional, same_expand_baseText_iff s base hs]
      exact ⟨fun h other hother => Option.some.inj hother ▸ h, fun h => h base rfl⟩
  rw [Agrees, hmarkers, hbase]
  exact and_iff_right rfl

end MarkerSet

end SourceMarkers
