import SourceMarkers.Proofs.Catalog.Moved
import SourceMarkers.Proofs.Session.Run

/-!
# Two ways to show a set

A set comes into a session in two ways. A client asks for it, and then its paths
were written short and are read from their texts; or a part of the program that
made it hands it over, and then its paths are taken as they are.

A request to show a written set is carried out as if what comes back of the set
had been handed over, and nothing is refused or logged on the way. This holds of
every set. When the paths are portable, what comes back differs from the set in
their spelling at most, so the catalogs agree; and it is written like the set,
so the events are equal to the letter, and so is everything that the session
puts out later.

The two are not the same. A path below the home directory comes back with the
home directory spelled as the session has it, and without the slashes and dots
that mean nothing on either side of what is left; and a base path has got a
slash. Nobody notices, as writing forgets all of this.

## Theorems

* `Catalog.agrees_put`: Sets that agree are put with the same result.
* `Session.call_written`: A request for a written set.
* `Session.alike_present`: Sets that are written alike are shown alike.
* `Session.call_present_agrees`: Both ways come to the same.
* `Session.chunks_call_present`: Nor is there a difference later.
-/

namespace SourceMarkers

open Json (Value)

/-! ## Sets that agree -/

theorem Marker.agrees_refl (m : Marker) : m.Agrees m := ⟨rfl, rfl, rfl, rfl, rfl, rfl⟩

theorem MarkerSet.agrees_refl (set : MarkerSet) : set.Agrees set := by
  refine ⟨rfl, ?_, Pointwise.refl Marker.agrees_refl set.markers⟩
  cases set.basePath with
  | none => exact trivial
  | some base => exact rfl

/-- Sets that agree are put into a catalog with the same result, up to the
    spelling of their paths. -/
theorem Catalog.agrees_put (c : Catalog) {set set' : MarkerSet} (h : set.Agrees set') :
    (c.put set).Agrees (c.put set') := by
  have hname : ∀ a b : MarkerSet, a.Agrees b → a.name = b.name := fun _ _ hab => hab.1
  exact ⟨h.1, Pointwise.upsert hname h (Pointwise.refl MarkerSet.agrees_refl c.sets)⟩

/-! ## Requests for a written set -/

/-- The request for a written set and a choice is a command to show what comes
    back of the set. -/
theorem Command.ofRequest_written (s : Shorthand) (set : MarkerSet) (select : AutoSelect) :
    ofRequest s "show_markers" (.array [set.toJson s, .ofInt select.code]) =
      pure (.ok (.present (set.reread s) select)) := by
  have hset : MarkerSet.ofJson s (set.toJson s) = pure (.ok (set.reread s)) :=
    set.ofJson_toJson s s
  have hselect : selectParam (.array [set.toJson s, .ofInt select.code]) 1 = .ok select :=
    (selectParam_eq_ok_iff _ _ select).mpr rfl
  have hparam := (param_eq_ok_iff (.array [set.toJson s, .ofInt select.code]) _).mpr ⟨_, rfl⟩
  simp only [ofRequest, presentOf, hparam, hset, hselect]
  rfl

namespace Session

variable (s : Session)

/-- A request for a written set is carried out with what comes back of it. -/
theorem call_written (set : MarkerSet) (select : AutoSelect) :
    s.call "show_markers" (.array [set.toJson s.shorthand, .ofInt select.code]) =
      s.present (set.reread s.shorthand) select := by
  unfold call
  rw [Command.ofRequest_written]
  rfl

/-! ## Sets that are shown -/

/-- A set that is shown is put into the catalog, and that is announced. -/
theorem present_eq (set : MarkerSet) (select : AutoSelect) :
    (s.present set select).session = s.withCatalog (s.catalog.put set) ∧
      (s.present set select).result = .ok .null ∧
      (s.present set select).events = (s.present set select).session.eventsOf (some select) :=
  s.perform_eq (.present set select)

theorem log_announce (select : AutoSelect) :
    (s.announce select).log = if s.attached then []
      else [⟨.debug, s!"Dropping '{Event.name}' event: no client attached"⟩] := by
  unfold announce
  split <;> rfl

/-- Sets that are written alike are shown alike: the sessions that are left
    cannot be told apart, and they announce the same. -/
theorem alike_present {set set' : MarkerSet} (h : set.Alike s.shorthand set')
    (select : AutoSelect) :
    (s.present set select).session.Alike (s.present set' select).session ∧
      (s.present set select).events = (s.present set' select).events := by
  rcases s.present_eq set select with ⟨hsession, _, hevents⟩
  rcases s.present_eq set' select with ⟨hsession', _, hevents'⟩
  have halike : (s.present set select).session.Alike (s.present set' select).session := by
    rw [hsession, hsession']
    exact ⟨rfl, rfl, (Catalog.Alike.refl s.shorthand s.catalog).put h⟩
  refine ⟨halike, ?_⟩
  -- What is announced is the view, and the views are equal.
  rw [hevents, hevents']
  unfold eventsOf
  rw [halike.view_eq, halike.attached]

/-- A set with portable paths may be shown in either way. A client that asks for
    the written set, with a choice, gets `null`, and the catalog agrees with the
    one after the set was handed over. Either way the client is told once, in the
    same words, and the same is logged. -/
theorem call_present_agrees (set : MarkerSet) (select : AutoSelect) (h : set.Portable) :
    let asked := s.call "show_markers" (.array [set.toJson s.shorthand, .ofInt select.code])
    let handed := s.present set select
    asked.result = .ok .null ∧ asked.session.catalog.Agrees handed.session.catalog ∧
      asked.events = handed.events ∧
      handed.events = (if s.attached then [⟨handed.session.view, select⟩] else []) ∧
      asked.log = handed.log := by
  intro asked handed
  have hasked : asked = s.present (set.reread s.shorthand) select := s.call_written set select
  have hclean := set.clean_of_portable s.shorthand h
  rcases s.present_eq (set.reread s.shorthand) select with ⟨hsession, hresult, _⟩
  rcases s.present_eq set select with ⟨hsession', _, hevents'⟩
  refine ⟨?_, ?_, ?_, ?_, ?_⟩
  · rw [hasked]
    exact hresult
  · rw [hasked, show handed.session = _ from hsession', hsession]
    exact s.catalog.agrees_put (set.agrees_reread s.shorthand hclean)
  · rw [hasked]
    exact (s.alike_present (set.toJson_reread s.shorthand hclean) select).2
  · -- Showing a set does not lose the client.
    have hattached : handed.session.attached = s.attached := by
      rw [show handed.session = _ from hsession']
      rfl
    rw [← hattached]
    exact hevents'
  · -- Both entries count the same markers under the same name.
    have hlength : (set.reread s.shorthand).markers.length = set.markers.length :=
      List.length_map _
    rw [hasked]
    show _ :: (announce _ _).log = _ :: (announce _ _).log
    rw [log_announce, log_announce, hlength]
    rfl

/-- A path below the home directory and one elsewhere. What was asked for is
    spelled with fewer slashes and dots than what was handed over, but it has a
    slash behind the base path. -/
theorem call_present_agrees_lint :
    let s : Session := ⟨⟨some (.ofString "/home/u/")⟩, ⟨"build", [⟨"lint", none, []⟩]⟩, true⟩
    let set : MarkerSet := ⟨"lint", some (.ofString "/home//u/p"),
      [⟨.warning, .ofString "/home/u/./p/a.R", 3, 1, "unused", true⟩,
        ⟨.error, .ofString "/srv/b.R", 5, 2, "unknown", true⟩]⟩
    let asked := s.call "show_markers" (.array [set.toJson s.shorthand, .ofInt 2])
    let handed := s.present set .specific
    set.Portable ∧ asked.result = .ok .null ∧
      asked.session.catalog.Agrees handed.session.catalog ∧
      asked.session.catalog ≠ handed.session.catalog ∧
      asked.events = [⟨handed.session.view, .specific⟩] ∧ handed.events = asked.events := by
  intro s set asked handed
  have hset : set.Portable := by
    constructor
    · simp only [set, List.forall_mem_cons]
      exact ⟨Path.portable_ofString "/home/u/./p/a.R" (by decide),
        Path.portable_ofString "/srv/b.R" (by decide), List.forall_mem_nil _⟩
    · intro base hbase
      rw [← Option.some.inj hbase]
      exact Path.portable_ofString "/home//u/p" (by decide)
  rcases s.call_present_agrees set .specific hset with ⟨hresult, hagrees, hevents, hone, _⟩
  refine ⟨hset, hresult, hagrees, ?_, hevents.trans hone, hevents.symm⟩
  -- The texts of the paths have forgotten how they were spelled.
  rw [show asked = _ from s.call_written set .specific, (s.present_eq _ _).1,
    show handed.session = _ from (s.present_eq _ _).1]
  decide

/-- After a set was shown in either way, all lines are answered alike. -/
theorem chunks_call_present (set : MarkerSet) (select : AutoSelect) (h : set.Portable)
    (lines : List (List UInt8)) :
    (s.call "show_markers" (.array [set.toJson s.shorthand, .ofInt select.code])).session.chunks
        lines = (s.present set select).session.chunks lines := by
  have hclean := set.clean_of_portable s.shorthand h
  rw [call_written]
  exact (s.alike_present (set.toJson_reread s.shorthand hclean) select).1.chunks_eq lines

end Session

end SourceMarkers
