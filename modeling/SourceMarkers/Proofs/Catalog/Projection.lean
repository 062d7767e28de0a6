import SourceMarkers.Proofs.Catalog.Alike
import SourceMarkers.Proofs.Catalog.History

/-!
# The view as a part of the document

A catalog is written in two ways. The document holds all of it and is kept, and the
view holds the names of the sets and the contents of the active one and is shown. Each
is put together by itself, and yet the view shows nothing that the document does not
hold: it can be told from the document alone, without the catalog and without knowing
how paths are written.

`Shows` says how. If no set of the document has the active name, there is nothing to
show. Else there is just one, and it is shown as it stands in the document, with the
names of all of them in order. That there is just one is what unique names are good
for, and these hold in every run.

## Main definitions

* `Value.IsNamed`: A value with a name.
* `Catalog.Shows`: What a view shows of the sets of a document.
* `Catalog.IsWholeOrNull`: A view with both of its parts, or with neither.

## Theorems

* `Catalog.shows_view`: The view shows the document.
* `Catalog.view_run`: The view after any run.
-/

namespace SourceMarkers

open Json (Value)

/-- The value has a member for its name, and this is the name there. -/
def Json.Value.IsNamed (name : String) (v : Value) : Prop :=
  v.member? "name" = some (.string name)

theorem MarkerSet.isNamed_toJson_iff (s : Shorthand) (set : MarkerSet) (name : String) :
    (set.toJson s).IsNamed name ↔ set.name = name := by
  rw [Value.IsNamed, member?_name_toJson, Option.some.injEq, Value.string.injEq]

namespace Catalog

/-- What a view shows of the sets of a document: the names of all and the one with the
    active name, or nothing, if no set has that name. -/
inductive Shows (active : String) (sets : List Value) : Value → Prop where
  | nothing (hnone : ∀ v ∈ sets, ¬ v.IsNamed active) :
    Shows active sets (.ofMembers [("names", .null), ("markers", .null)])
  | contents (names : List String) (v : Value)
    (hnames : sets.map (Value.member? "name") = names.map fun name => some (.string name))
    (hunique : names.Nodup) (hmem : v ∈ sets) (hnamed : v.IsNamed active)
    (honly : ∀ other ∈ sets, other.IsNamed active → other = v) :
    Shows active sets (.ofMembers [("names", .array (names.map Value.string)), ("markers", v)])

/-- With unique names, the view of a catalog shows its document. -/
theorem shows_view (s : Shorthand) (c : Catalog) (h : c.UniqueNames) :
    Shows c.active (c.sets.map (MarkerSet.toJson s)) (c.view s) := by
  rw [view]
  cases hactive : c.active? with
  | none =>
    refine .nothing fun v hv hnamed => ?_
    rcases List.mem_map.mp hv with ⟨set, hset, rfl⟩
    have hname := (set.isNamed_toJson_iff s c.active).mp hnamed
    -- A set with this name would have been found.
    rcases (c.mem_names_iff set.name).mp (List.mem_map_of_mem hset) with ⟨found, hfound⟩
    rw [hname] at hfound
    exact absurd (hactive.symm.trans hfound) (Option.some_ne_none found).symm
  | some set =>
    rcases (c.find?_eq_some_iff h c.active set).mp hactive with ⟨hset, hname⟩
    refine .contents c.names _ ?_ h (List.mem_map_of_mem hset)
      ((set.isNamed_toJson_iff s c.active).mpr hname) fun v hv hnamed => ?_
    · rw [names, List.map_map, List.map_map]
      exact List.map_congr_left fun other _ => other.member?_name_toJson s
    · rcases List.mem_map.mp hv with ⟨other, hother, rfl⟩
      have hsame := (other.isNamed_toJson_iff s c.active).mp hnamed
      rw [List.inj_on_of_nodup_map h hother hset (hsame.trans hname.symm)]

/-- Both parts of a view are `null`, or else the contents have a name that is just once
    among the names. -/
def IsWholeOrNull (view : Value) : Prop :=
  (view.member? "names" = some .null ∧ view.member? "markers" = some .null) ∨
    ∃ (names : List String) (v : Value) (name : String),
      view.member? "names" = some (.array (names.map Value.string)) ∧
        view.member? "markers" = some v ∧ v.IsNamed name ∧ names.count name = 1

theorem Shows.isWholeOrNull {active : String} {sets : List Value} {view : Value}
    (h : Shows active sets view) : IsWholeOrNull view := by
  cases h with
  | nothing hnone => exact Or.inl ⟨rfl, rfl⟩
  | contents names v hnames hunique hmem hnamed honly =>
    refine Or.inr ⟨names, v, active, ?_, ?_, hnamed, List.count_eq_one_of_mem hunique ?_⟩
    · rw [Value.member?_ofMembers]
      rfl
    · rw [Value.member?_ofMembers]
      rfl
    -- The name of the contents stands in the list of names as in the document.
    have hname : some (Value.string active) ∈ names.map fun name => some (Value.string name) := by
      rw [← hnames, ← hnamed]
      exact List.mem_map_of_mem hmem
    rcases List.mem_map.mp hname with ⟨name, hname, heq⟩
    rw [Option.some.injEq, Value.string.injEq] at heq
    exact heq ▸ hname

/-- Whatever was done to a catalog, documents that were read included, its view shows
    its document. If no set there has the active name, the view shows `null` twice; else
    it shows the names of all sets, in their order and each once, and the one set with
    the active name as it is. So its two parts are `null` together, and the name of the
    set that is shown is once among the names. -/
theorem view_run (ops : List Operation) (s : Shorthand) :
    let c := empty.run ops
    ∃ active sets, IsDocument (c.toJson s) active sets ∧ Shows active sets (c.view s) ∧
      IsWholeOrNull (c.view s) := by
  intro c
  have hdoc := (documentParts_eq_ok_iff _ _ _).mp (documentParts_toJson s c)
  have hshows := shows_view s c (uniqueNames_run ops)
  exact ⟨c.active, c.sets.map (MarkerSet.toJson s), hdoc, hshows, hshows.isWholeOrNull⟩

end Catalog

end SourceMarkers
