import SourceMarkers.Proofs.Catalog.Omissions
import SourceMarkers.Session.Lifetime

/-!
# Nothing is left out in silence

When a session takes over a document, what is missing afterwards can be found in the
log. The warnings there are those about the things that were left out, in the order
of the document, and they add up: the sets that the session has and the sets that a
warning is about are as many as the document lists, and so it is with the markers of
each set that the session has.

A document that is refused is refused as a whole, before anything in it is looked at.
So nothing in it gets a warning, and the session only says that it was refused.

## Theorems

* `Session.log_restore`: What a session logs about a document.
* `Session.restore_reports`: The warnings account for everything.
-/

namespace SourceMarkers

open Json (Value)

namespace Session

/-- A session logs what reading the document logs, and then what came of it. -/
theorem log_restore (s : Session) (store : Store) (doc : Value) :
    (s.restore store (.ok (some doc))).log =
      match Catalog.ofDocument s.shorthand doc with
      | .error fault => [⟨.error,
          s!"Failed to restore markers from {store.path.quoted}: {fault.message}"⟩]
      | .ok read => read.log ++ [⟨.info,
          s!"Restored {read.value.sets.length} marker sets from {store.path.quoted}"⟩] := by
  rw [restore]
  cases Catalog.ofDocument s.shorthand doc with
  | error fault => rfl
  | ok read => rfl

/-- A document that is refused is not worth a warning: the session logs the refusal
    and nothing else. Of a document that is read, the warnings are those about what is
    left out of it, in order. Each value of its list is a set that the session has or
    one that a warning is about, and each value in the list of a set that the session
    has is a marker of it or has a warning. -/
theorem restore_reports (s : Session) (store : Store) (doc : Value) :
    let restored := s.restore store (.ok (some doc))
    match Catalog.ofDocument s.shorthand doc with
    | .error fault =>
      restored.log = [⟨.error,
        s!"Failed to restore markers from {store.path.quoted}: {fault.message}"⟩]
    | .ok read =>
      restored.log = read.log ++ [⟨.info,
        s!"Restored {read.value.sets.length} marker sets from {store.path.quoted}"⟩] ∧
      ∃ active values, Catalog.IsDocument doc active values ∧
        let omitted := Catalog.omitted s.shorthand [] values
        read.log.filter (fun e => e.level = .warn) = omitted.map Omission.entry ∧
        values.length = read.value.sets.length + omitted.countP Omission.ofSet ∧
        ∀ set ∈ read.value.sets, ∃ front v back f, values = front ++ v :: back ∧
          MarkerSet.IsRecord v f ∧ set = MarkerSet.ofFields s.shorthand f ∧
          (∀ o ∈ Catalog.omittedAt s.shorthand front v, ∃ fault, o = .badMarker set.name fault) ∧
          f.markers.length =
            set.markers.length + (Catalog.omittedAt s.shorthand front v).length := by
  intro restored
  have hlog := s.log_restore store doc
  cases hread : Catalog.ofDocument s.shorthand doc with
  | error fault =>
    rw [hread] at hlog
    exact hlog
  | ok read =>
    rw [hread] at hlog
    rcases Catalog.log_of_ofDocument s.shorthand doc read hread with
      ⟨active, values, hdoc, hvalue, hentries⟩
    refine ⟨hlog, active, values, hdoc, ?_, ?_, fun set hset => ?_⟩
    · -- The last entry is no warning, and all others are.
      rw [hentries, List.filter_append, List.filter_eq_self.mpr ?_]
      · exact List.append_nil _
      · intro e he
        rcases List.mem_map.mp he with ⟨o, _, rfl⟩
        exact decide_eq_true o.level_entry
    · have hcount := Catalog.length_setsOf_add_omitted s.shorthand [] values
      rw [List.nil_append] at hcount
      rw [hvalue, hcount]
      exact (Nat.zero_add _).symm
    · rw [hvalue] at hset
      rcases Catalog.exists_place_of_mem_setsOf s.shorthand values set hset with
        ⟨front, v, back, f, hvalues, hrecord, rfl, hnew⟩
      refine ⟨front, v, back, f, hvalues, hrecord, rfl, ?_, ?_⟩
      · rw [Catalog.omittedAt_of_new s.shorthand front v f hrecord hnew]
        intro o ho
        rcases List.mem_map.mp ho with ⟨fault, _, rfl⟩
        exact ⟨fault, rfl⟩
      · rw [Catalog.omittedAt_of_new s.shorthand front v f hrecord hnew]
        exact (Catalog.length_markers_add_omitted s.shorthand f).symm

/-- A marker is left out of a set, and then the set itself, as its name is taken. -/
example :
    let lint : Value := .array [.string "lint", .null, .array [.null]]
    Catalog.omitted .verbatim [] [lint, lint] =
      [.badMarker "lint" (.malformed (.wrongKind .null Marker.wanted)),
        .badMarker "lint" (.malformed (.wrongKind .null Marker.wanted)),
        .nameTaken "lint"] := rfl

end Session

end SourceMarkers
