import SourceMarkers.Proofs.Catalog.RoundTrip
import SourceMarkers.Proofs.Files.Kept
import SourceMarkers.Proofs.Session.Run
import SourceMarkers.Session.Lifetime

/-!
# Restarts

A session that ends well and is started again on the same store goes on as if
nothing had happened. Paths may be spelled anew on the way, so the new session
does not have the same catalog; but it has one that agrees with the old one,
and that is written in the very same way. As writing is all that anyone ever
sees of a catalog, the restart cannot be noticed by the next request, nor by
any later one, nor in the file that is left behind in the end.

All of this rests on what holds of every session that was started and has only
answered lines: names are unique, so nothing is dropped as a duplicate, and
every path comes back from its text. What the file held before the first start
is of no importance, since a session starts with a good catalog or with none.

## Main definitions

* `Session.sitting`: A session from its start to its end.

## Theorems

* `Session.kept_start`: What holds of a session that was started.
* `Session.start_save_of_unique`, `Session.start_save`: Starting again after a
  shutdown.
* `Session.restart_lossless`: Nothing is lost in a restart.
* `Session.sitting_append`: Nobody notices a restart.
-/

namespace SourceMarkers

open Json (Value)

namespace Session

/-! ## Starting -/

theorem fixed_restore (s : Session) (store : Store) (found : Except StoreFault (Option Value)) :
    (s.restore store found).session.shorthand = s.shorthand ∧
      (s.restore store found).session.attached = s.attached := by
  unfold restore
  split
  · exact ⟨rfl, rfl⟩
  · exact ⟨rfl, rfl⟩
  · split
    · exact ⟨rfl, rfl⟩
    · exact ⟨rfl, rfl⟩

/-- A document that is read takes the place of the catalog. -/
theorem restore_of_read (s : Session) (store : Store) (doc : Value) (read : Logged Catalog)
    (h : Catalog.ofDocument s.shorthand doc = .ok read) :
    s.restore store (.ok (some doc)) = (s.withCatalog read.value).quiet (read.log ++
      [⟨.info, s!"Restored {read.value.sets.length} marker sets from {store.path.quoted}"⟩]) := by
  rw [restore]
  simp only [h]

/-- What is found in a store is taken over as a kept catalog, or not at all. -/
theorem kept_restore (s : Session) (store : Store) (found : Except StoreFault (Option Value))
    (h : s.Kept) : (s.restore store found).session.Kept := by
  unfold restore
  split
  · exact h
  · exact h
  · next doc =>
    split
    · exact h
    · next read hread => exact Catalog.kept_of_ofDocument s.shorthand doc read hread

theorem kept_start (shorthand : Shorthand) (store : Store) (t : FileTree) :
    (start shorthand store t).value.Kept ∧
      (start shorthand store t).value.shorthand = shorthand ∧
      (start shorthand store t).value.attached = true := by
  refine ⟨kept_restore (new shorthand) store _ (Catalog.kept_empty shorthand), ?_⟩
  exact fixed_restore (new shorthand) store _

/-- Started again after its catalog was saved, a session has what comes back of
    the catalog, and reports that it was read, and nothing else. No set is taken for
    a duplicate, and which of the paths come back is of no importance here. -/
theorem start_save_of_unique (s : Session) (store : Store) (t : FileTree)
    (hstore : store.Writable t) (h : s.catalog.UniqueNames) (hattached : s.attached = true) :
    start s.shorthand store (store.save s.document t).2 =
      ⟨s.withCatalog (s.catalog.reread s.shorthand),
        [⟨.debug, s!"Loaded {s.catalog.sets.length} marker sets (active: '{s.catalog.active}')"⟩,
          ⟨.info, s!"Restored {s.catalog.sets.length} marker sets from {store.path.quoted}"⟩]⟩ := by
  -- The text in the file reads back as the document, and that as the catalog.
  have hread : s.document.Readable Json.depthLimit :=
    (s.catalog.readable_toJson s.shorthand).mono (by decide)
  have hload : store.load (store.save s.document t).2 = pure (.ok (some s.document)) :=
    store.load_save _ t hstore hread
  have hdocument := Catalog.ofDocument_toJson s.shorthand s.catalog h
  have hlength : (s.catalog.reread s.shorthand).sets.length = s.catalog.sets.length :=
    List.length_map _
  have hnew : (new s.shorthand).withCatalog (s.catalog.reread s.shorthand) =
      s.withCatalog (s.catalog.reread s.shorthand) := by
    unfold new withCatalog
    rw [hattached]
  have hrestore := restore_of_read (new s.shorthand) store s.document _ hdocument
  unfold start load
  rw [reload_eq, hload, Logged.value_pure, hrestore, hlength, hnew]
  rfl

theorem start_save (s : Session) (store : Store) (t : FileTree) (hstore : store.Writable t)
    (h : s.Kept) (hattached : s.attached = true) :
    start s.shorthand store (store.save s.document t).2 =
      ⟨s.withCatalog (s.catalog.reread s.shorthand),
        [⟨.debug, s!"Loaded {s.catalog.sets.length} marker sets (active: '{s.catalog.active}')"⟩,
          ⟨.info, s!"Restored {s.catalog.sets.length} marker sets from {store.path.quoted}"⟩]⟩ :=
  s.start_save_of_unique store t hstore h.unique hattached

/-- What comes back of a kept session cannot be told apart from it. -/
theorem alike_reread (s : Session) (h : s.Kept) :
    (s.withCatalog (s.catalog.reread s.shorthand)).Alike s :=
  ⟨rfl, rfl, Catalog.alike_reread s.shorthand s.catalog h⟩

theorem Alike.document_eq {a b : Session} (h : a.Alike b) : a.document = b.document := by
  unfold document
  rw [h.shorthand]
  exact h.catalog.toJson_eq

/-! ## Restarts -/

theorem shutdown_true (s : Session) (store : Store) (t : FileTree) :
    (s.shutdown store true t).2 = (store.save s.document t).2 := rfl

/-- Nothing is lost in a restart, whatever the file held at first and whatever
    was asked in between: the new session has an equal catalog, up to the
    spelling of paths, and found nothing to complain about; it shows the same
    view; and ending it at once leaves the file as it is. -/
theorem restart_lossless (shorthand : Shorthand) (store : Store) (t : FileTree)
    (lines : List (List UInt8)) (hstore : store.Writable t) :
    let s := (start shorthand store t).value.after lines
    let kept := (s.shutdown store true t).2
    let again := start shorthand store kept
    again.value.catalog.Agrees s.catalog ∧
      (∀ entry ∈ again.log, entry.level ≠ .warn ∧ entry.level ≠ .error) ∧
      again.value.view = s.view ∧
      kept.read store.path = .ok (Store.textOf s.document) ∧
      (again.value.shutdown store true kept).2.read store.path = kept.read store.path := by
  intro s kept again
  rcases kept_start shorthand store t with ⟨hkept, hshorthand, hattached⟩
  rcases fixed_after (start shorthand store t).value lines with ⟨hshorthand', hattached'⟩
  have hs : s.Kept := kept_after _ lines hkept
  have hsame : s.shorthand = shorthand := hshorthand'.trans hshorthand
  have hagain := start_save s store t hstore hs (hattached'.trans hattached)
  rw [hsame] at hagain
  -- Everything below is read off the catalog that comes back.
  have hvalue : again.value = s.withCatalog (s.catalog.reread s.shorthand) := by
    rw [hsame]
    exact congrArg Logged.value hagain
  have halike : again.value.Alike s := by
    rw [hvalue]
    exact alike_reread s hs
  have hread : kept.read store.path = .ok (Store.textOf s.document) :=
    store.read_save s.document t hstore
  refine ⟨?_, ?_, halike.view_eq, hread, ?_⟩
  · rw [hvalue]
    exact Catalog.agrees_reread s.shorthand s.catalog hs
  · -- The log says how many sets there are, twice.
    intro entry hentry
    rw [show again.log = _ from congrArg Logged.log hagain] at hentry
    simp only [List.mem_cons, List.not_mem_nil, or_false] at hentry
    rcases hentry with rfl | rfl
    · simp only [ne_eq, reduceCtorEq, not_false_eq_true, and_self]
    · simp only [ne_eq, reduceCtorEq, not_false_eq_true, and_self]
  · -- The second document is the first one, and so is its text.
    have hwritable : store.Writable kept := store.writable_save s.document t hstore
    rw [hread, shutdown_true, store.read_save _ kept hwritable, halike.document_eq]

/-- A restart in a directory that is still to be made, after a set with a base
    path below the home directory was shown and a line that is no text was
    refused. -/
theorem restart_lossless_scratch :
    let store := Store.inDirectory (.ofString "/scratch")
    let shorthand : Shorthand := ⟨some (.ofString "/home/u")⟩
    let s := (start shorthand store .empty).value.after
      [Utf8.ofString "[1, \"show_markers\", [[\"lint\", \"~/p\", []]]]", [0xFF]]
    let again := start shorthand store (s.shutdown store true .empty).2
    store.Writable .empty ∧ again.value.catalog.Agrees s.catalog ∧ again.value.view = s.view := by
  intro store shorthand s again
  have hstore : store.Writable .empty := store.writable_of_save .null .empty rfl
  rcases restart_lossless shorthand store .empty
    [Utf8.ofString "[1, \"show_markers\", [[\"lint\", \"~/p\", []]]]", [0xFF]] hstore with
    ⟨hcatalog, _, hview, _⟩
  exact ⟨hstore, hcatalog, hview⟩

/-- What a session puts out from its start to its end, and the files that it
    leaves behind. -/
def sitting (shorthand : Shorthand) (store : Store) (input : List UInt8) (t : FileTree) :
    List UInt8 × FileTree :=
  let service := (start shorthand store t).value.serve none input .ended
  (service.output, (service.session.shutdown store (service.endedWell .ended) t).2)

theorem sitting_eq (shorthand : Shorthand) (store : Store) (input : List UInt8) (t : FileTree) :
    sitting shorthand store input t =
      ((start shorthand store t).value.chunks (requestLines input .ended),
        (store.save ((start shorthand store t).value.after (requestLines input .ended)).document
          t).2) := by
  rcases serve_eq (start shorthand store t).value input .ended with ⟨hsession, houtput, hwell⟩
  unfold sitting
  simp only [hsession, houtput, hwell]
  rfl

/-- Nobody notices a restart behind a line end: two sessions, one after the
    other, put out what a single one puts out for the whole input, and they
    leave the same file behind. -/
theorem sitting_append (shorthand : Shorthand) (store : Store) (t : FileTree) (a b : List UInt8)
    (hstore : store.Writable t) (hcut : a = [] ∨ a.getLast? = some newline) :
    let first := sitting shorthand store a t
    let second := sitting shorthand store b first.2
    let whole := sitting shorthand store (a ++ b) t
    first.1 ++ second.1 = whole.1 ∧
      ∃ octets, second.2.read store.path = .ok octets ∧ whole.2.read store.path = .ok octets := by
  intro first second whole
  rcases kept_start shorthand store t with ⟨hkept, hshorthand, hattached⟩
  rcases fixed_after (start shorthand store t).value (requestLines a .ended) with
    ⟨hshorthand', hattached'⟩
  -- The session in the middle goes on in memory or starts again from the file.
  let middle := (start shorthand store t).value.after (requestLines a .ended)
  have hfirst : first.2 = (store.save middle.document t).2 := by
    rw [show first = _ from sitting_eq ..]
  have hmiddle : middle.Kept := kept_after _ _ hkept
  have hsame : middle.shorthand = shorthand := hshorthand'.trans hshorthand
  have hagain := start_save middle store t hstore hmiddle (hattached'.trans hattached)
  have halike : (start shorthand store first.2).value.Alike middle := by
    rw [hfirst, ← hsame, hagain]
    exact alike_reread middle hmiddle
  constructor
  · -- The second half of the output comes from alike sessions.
    rw [show first = _ from sitting_eq .., show second = _ from sitting_eq ..,
      show whole = _ from sitting_eq .., requestLines_append a b hcut, chunks_append]
    show _ ++ chunks (start shorthand store first.2).value _ = _
    rw [halike.chunks_eq]
  · -- So do the documents that are written in the end.
    have hwritable : store.Writable first.2 := by
      rw [hfirst]
      exact store.writable_save middle.document t hstore
    let last := middle.after (requestLines b .ended)
    refine ⟨Store.textOf last.document, ?_, ?_⟩
    · rw [show second = _ from sitting_eq .., store.read_save _ first.2 hwritable]
      rw [(halike.after _).document_eq]
    · rw [show whole = _ from sitting_eq .., store.read_save _ t hstore,
        requestLines_append a b hcut, after_append]

/-- A set is shown in one session, and asked for in the next. -/
theorem sitting_append_scratch :
    let store := Store.inDirectory (.ofString "/scratch")
    let shorthand : Shorthand := ⟨some (.ofString "/home/u")⟩
    let a := Utf8.ofString "[1, \"show_markers\", [[\"lint\", \"~/p\", []]]]" ++ [newline]
    let b := Utf8.ofString "[2, \"get_markers_state\"]"
    let first := sitting shorthand store a .empty
    store.Writable .empty ∧ a.getLast? = some newline ∧
      first.1 ++ (sitting shorthand store b first.2).1 =
        (sitting shorthand store (a ++ b) .empty).1 := by
  intro store shorthand a b first
  have hstore : store.Writable .empty := store.writable_of_save .null .empty rfl
  have hcut : a.getLast? = some newline := List.getLast?_concat
  exact ⟨hstore, hcut, (sitting_append shorthand store .empty a b hstore (Or.inr hcut)).1⟩

end Session

end SourceMarkers
