import SourceMarkers.Proofs.Catalog.Projection
import SourceMarkers.Proofs.Marker.NormalForm
import SourceMarkers.Proofs.Session.Messages
import SourceMarkers.Proofs.Session.Restart

/-!
# No base path and an empty one

A set without a base path is written with `null`, and it comes back without one. Every
other set is written with a text that ends in a slash, and it comes back with a base
path. So `null` stands for no base path and for nothing else, wherever a set is
written.

An empty base path is meant to be none. Where sets are read this is so, as an empty
text is taken for none there. Where they are written it is not: nothing looks at the
path itself, and the slash that goes behind its text turns the empty text into that of
the root. The client is shown the root for a base path, and so is the next session.
Below an empty home directory the text is that of the home directory, and only there
an empty base path comes back as it was. It can only come from the program, since no
set that was read has one.

The two kinds of writing and the events share one function for a set, and a restart
reads what it wrote, so all of this follows from what holds of a single set.

## Main definitions

* `MarkerSet.BaseWritten`, `MarkerSet.BaseRestored`: What is written of the base path of
  a set, and what comes back of it.

## Theorems

* `MarkerSet.baseWritten_toJson`, `MarkerSet.baseRestored_reread`: One set.
* `Catalog.baseWritten_view`: The set in a view.
* `Session.base_path_null_iff`: Documents, views, events and restarts.
* `Session.base_path_empty_root`: An empty base path becomes the root.
-/

namespace SourceMarkers

open Json (Value)

/-! ## One set -/

namespace MarkerSet

/-- What stands in a written set for the base path of the set: `null` just when there
    is none, and the text of another path when it is empty. -/
structure BaseWritten (s : Shorthand) (v : Value) (set : MarkerSet) : Prop where
  named : v.IsNamed set.name
  null_iff : v.member? "base_path" = some .null ↔ set.basePath = none
  empty : set.basePath = some ⟨[]⟩ → v.member? "base_path" = some (.string (emptyBaseText s))

/-- What comes back of the base path of a set: none just when there was none, and
    another path when it was empty. -/
structure BaseRestored (s : Shorthand) (back set : MarkerSet) : Prop where
  name : back.name = set.name
  none_iff : back.basePath = none ↔ set.basePath = none
  empty : set.basePath = some ⟨[]⟩ → back.basePath = some (emptyBaseBack s)

theorem member?_base_toJson (s : Shorthand) (set : MarkerSet) :
    (set.toJson s).member? "base_path" = some (.ofString? (set.basePath.map (baseText s))) := by
  rw [toJson, Value.member?_ofMembers]
  rfl

theorem baseWritten_toJson (s : Shorthand) (set : MarkerSet) :
    BaseWritten s (set.toJson s) set := by
  refine ⟨(set.isNamed_toJson_iff s set.name).mpr rfl, ?_, fun hempty => ?_⟩
  · rw [member?_base_toJson, Option.some.injEq]
    -- A text is not `null`, whatever the path is.
    cases set.basePath with
    | none => exact iff_of_true rfl rfl
    | some base =>
      exact iff_of_false (by simp only [Option.map_some, Value.ofString?, reduceCtorEq,
        not_false_eq_true]) (Option.some_ne_none base)
  · rw [member?_base_toJson, hempty, Option.map_some, baseText_empty]
    rfl

theorem baseRestored_reread (s : Shorthand) (set : MarkerSet) :
    BaseRestored s (set.reread s) set := by
  refine ⟨rfl, Option.map_eq_none_iff, fun hempty => ?_⟩
  rw [reread, hempty, Option.map_some, baseText_empty, expand_emptyBaseText]

end MarkerSet

/-! ## Catalogs and sessions -/

namespace Catalog

/-- The active set is written in the view as it is in the document. -/
theorem member?_markers_view (s : Shorthand) (c : Catalog) (set : MarkerSet)
    (h : c.active? = some set) : (c.view s).member? "markers" = some (set.toJson s) := by
  simp only [view, h]
  rw [Value.member?_ofMembers]
  rfl

theorem baseWritten_view (s : Shorthand) (c : Catalog) (set : MarkerSet)
    (h : c.active? = some set) :
    ∃ v, (c.view s).member? "markers" = some v ∧ MarkerSet.BaseWritten s v set :=
  ⟨set.toJson s, c.member?_markers_view s set h, set.baseWritten_toJson s⟩

end Catalog

namespace Session

/-- Whatever sets were put into a catalog, with base paths of all kinds: in the document,
    in the view and in every event, a set is written with `null` for a base path just
    when it has none, and after a restart it has none just when it had none before. A
    set with an empty base path is written with that of the root, and has this one
    after a restart, unless the home directory is empty; then it has the home
    directory. -/
theorem base_path_null_iff (shorthand : Shorthand) (store : Store) (t : FileTree)
    (shown : List MarkerSet) (hstore : store.Writable t) :
    let s : Session := ⟨shorthand, Catalog.empty.run (shown.map .put), true⟩
    let again := (start shorthand store (s.shutdown store true t).2).value
    (∃ values, Catalog.IsDocument s.document s.catalog.active values ∧
      Pointwise (MarkerSet.BaseWritten shorthand) values s.catalog.sets) ∧
    (∀ set, s.catalog.active? = some set →
      ∃ v, s.view.member? "markers" = some v ∧ MarkerSet.BaseWritten shorthand v set) ∧
    (∀ command, ∀ e ∈ (s.perform command).events, ∀ set,
      (s.perform command).session.catalog.active? = some set →
        ∃ state v, e.data.member? "markers_state" = some state ∧
          state.member? "markers" = some v ∧ MarkerSet.BaseWritten shorthand v set) ∧
    Pointwise (MarkerSet.BaseRestored shorthand) again.catalog.sets s.catalog.sets := by
  intro s again
  have hdoc := (Catalog.documentParts_eq_ok_iff _ _ _).mp
    (Catalog.documentParts_toJson shorthand s.catalog)
  refine ⟨⟨_, hdoc, ?_⟩, s.catalog.baseWritten_view shorthand, fun command e he set hset => ?_, ?_⟩
  · exact Pointwise.map_self s.catalog.sets fun set _ => set.baseWritten_toJson shorthand
  · have hshorthand : (s.perform command).session.shorthand = shorthand :=
      s.shorthand_perform command
    rcases (s.perform command).session.catalog.baseWritten_view shorthand set hset with
      ⟨v, hv, hwritten⟩
    refine ⟨e.view, v, e.member?_view_data, ?_, hwritten⟩
    rw [s.view_of_mem_events command e he, view, hshorthand]
    exact hv
  · have hagain : again = s.withCatalog (s.catalog.reread shorthand) := congrArg Logged.value
      (s.start_save_of_unique store t hstore (Catalog.uniqueNames_run _) rfl)
    rw [hagain]
    exact Pointwise.map_self s.catalog.sets fun set _ => set.baseRestored_reread shorthand

/-- Sets of all three kinds, shown one after the other and then read back. -/
theorem base_path_null_iff_kinds :
    let shorthand : Shorthand := ⟨some (.ofString "/home/u")⟩
    let store := Store.inDirectory (.ofString "/scratch")
    let shown : List MarkerSet :=
      [⟨"absent", none, []⟩, ⟨"empty", some ⟨[]⟩, []⟩, ⟨"below", some (.ofString "/home/u/p"), []⟩]
    let s : Session := ⟨shorthand, Catalog.empty.run (shown.map .put), true⟩
    let again := (start shorthand store (s.shutdown store true .empty).2).value
    store.Writable .empty ∧ s.catalog.sets = shown ∧
      Pointwise (MarkerSet.BaseRestored shorthand) again.catalog.sets s.catalog.sets ∧
      ∃ v, s.view.member? "markers" = some v ∧
        MarkerSet.BaseWritten shorthand v ⟨"below", some (.ofString "/home/u/p"), []⟩ := by
  intro shorthand store shown
  have hstore : store.Writable .empty := store.writable_of_save .null .empty rfl
  rcases base_path_null_iff shorthand store .empty shown hstore with ⟨_, hview, _, hagain⟩
  refine ⟨hstore, by decide, ?_⟩
  -- The lists of sets stand there as they do in the goal, and are not worked out.
  constructor
  · assumption
  · exact hview _ (by decide)

/-- A set that the program made with an empty base path. The client is shown the root
    for it, and so it is written and read back. -/
theorem base_path_empty_root :
    let lint : MarkerSet := ⟨"lint", some ⟨[]⟩, []⟩
    let store := Store.inDirectory (.ofString "/scratch")
    let shown := (new .verbatim).present lint .none
    let s := shown.session
    let again := (start .verbatim store (s.shutdown store true .empty).2).value
    s.catalog = Catalog.empty.run [.put lint] ∧
      Catalog.IsDocument s.document "lint" [lint.toJson .verbatim] ∧
      s.view.member? "markers" = some (lint.toJson .verbatim) ∧
      shown.events.map Event.data =
        [.object [("auto_select", .ofInt 0), ("markers_state", s.view)]] ∧
      (lint.toJson .verbatim).member? "base_path" = some (.string "/") ∧
      again.catalog.sets = [⟨"lint", some (.ofString "/"), []⟩] := by
  intro lint store shown s again
  have hstore : store.Writable .empty := store.writable_of_save .null .empty rfl
  have hagain : again = s.withCatalog (s.catalog.reread .verbatim) := congrArg Logged.value
    (s.start_save_of_unique store .empty hstore (Catalog.uniqueNames_run [.put lint]) rfl)
  have hs : s = ⟨.verbatim, ⟨"lint", [lint]⟩, true⟩ := rfl
  have hbase : MarkerSet.baseText .verbatim ⟨[]⟩ = "/" := MarkerSet.baseText_empty .verbatim
  have hevents : shown.events = [⟨s.view, .none⟩] := rfl
  refine ⟨rfl, ?_, s.catalog.member?_markers_view .verbatim lint rfl, ?_, ?_, ?_⟩
  · rw [hs]
    exact (Catalog.documentParts_eq_ok_iff _ _ _).mp
      (Catalog.documentParts_toJson .verbatim ⟨"lint", [lint]⟩)
  · rw [hevents, List.map_singleton, Event.data_eq]
    rfl
  · rw [MarkerSet.member?_base_toJson, Option.map_some, hbase]
    rfl
  · rw [hagain]
    decide

end Session

end SourceMarkers
