import SourceMarkers.Proofs.Catalog.Neighbours
import SourceMarkers.Proofs.Catalog.RoundTrip
import SourceMarkers.Proofs.Files.Kept
import SourceMarkers.Session.Lifetime

/-!
# Loading as a whole or not at all

Much can be wrong with what a session is to load: there may be no file, or a
directory in its place, and the file may hold no text, no JSON text, no object, or
an object that is no document of a catalog. In all of these cases the session keeps
the catalog it has. In the one that is left the document takes the place of the
catalog, and nothing of the old one remains.

The failures lie on two levels. The store reads the file (`Store.load_eq_ok_iff`),
and the catalog reads the document (`Catalog.loads_iff`). What the session does is
the operation on catalogs, or nothing when the store gives no document
(`session_restore`), so the two levels can be put together.

The client hears nothing of a load: whatever was found, no event comes of it.
Whether there is a client makes no difference to it either, not even in the log,
while an announcement that nobody listens to would leave an entry there.

## Theorems

* `Session.session_restore`: What becomes of the session.
* `Session.events_restore`, `Session.events_reload`: No event comes of a load.
* `Session.session_reload_of_keeps`, `Session.session_reload_of_not_keeps`:
  Loading a document, and failing to.
* `Session.restore_attached`: Loading with and without a client.
* `Session.reload_whole_or_not`: All or nothing.
-/

namespace SourceMarkers

open Json (Value)

namespace Session

/-- What was found is loaded by the catalog, unless nothing was found. -/
theorem session_restore (s : Session) (store : Store)
    (found : Except StoreFault (Option Value)) :
    (s.restore store found).session =
      match found with
      | .ok (some doc) => s.withCatalog (s.catalog.apply (.load s.shorthand doc))
      | _ => s := by
  unfold restore
  split
  · rfl
  · rfl
  · next doc =>
    simp only [Catalog.apply]
    cases Catalog.ofDocument s.shorthand doc with
    | error f => rfl
    | ok read => rfl

/-- The client is told nothing, whatever was found. -/
theorem events_restore (s : Session) (store : Store) (found : Except StoreFault (Option Value)) :
    (s.restore store found).events = [] := by
  unfold restore
  split
  · rfl
  · rfl
  · next doc =>
    cases Catalog.ofDocument s.shorthand doc with
    | error f => rfl
    | ok read => rfl

/-- No event comes of a load. -/
theorem events_reload (s : Session) (store : Store) (t : FileTree) :
    (s.reload store t).events = [] :=
  s.events_restore store (store.load t).value

/-- A document that the store keeps takes the place of the catalog. -/
theorem session_reload_of_keeps (s : Session) (store : Store) (t : FileTree) (doc : Value)
    (active : String) (values : List Value) (hkeeps : store.Keeps t doc)
    (hdoc : Catalog.IsDocument doc active values) :
    (s.reload store t).session = s.withCatalog ⟨active, Catalog.setsOf s.shorthand values⟩ := by
  have hobject : ∃ members, doc = .object members := by
    cases doc with
    | object members => exact ⟨members, rfl⟩
    | _ => exact absurd hdoc.1.symm (Option.some_ne_none _)
  have hfound := (store.load_eq_ok_iff t doc).mpr ⟨hkeeps, hobject⟩
  show (s.restore store (store.load t).value).session = _
  rw [session_restore, hfound]
  simp only [Catalog.apply_load s.catalog s.shorthand doc active values hdoc]

/-- If the store keeps no document of a catalog, nothing changes. -/
theorem session_reload_of_not_keeps (s : Session) (store : Store) (t : FileTree)
    (h : ¬ ∃ doc active values, store.Keeps t doc ∧ Catalog.IsDocument doc active values) :
    (s.reload store t).session = s := by
  show (s.restore store (store.load t).value).session = s
  rw [session_restore]
  split
  · next doc hfound =>
    -- A document was found, but the catalog refuses it.
    have hkeeps := ((store.load_eq_ok_iff t doc).mp hfound).1
    have hrefused : ¬ (Operation.load s.shorthand doc).Loads := by
      rw [Catalog.loads_iff]
      rintro ⟨active, values, hdoc⟩
      exact h ⟨doc, active, values, hkeeps, hdoc⟩
    rw [Catalog.apply_load_of_not_loads _ _ doc hrefused]
    rfl
  · rfl

/-- Whether a client listens makes no difference to what is taken over. -/
theorem restore_attached (s : Session) (store : Store) (found : Except StoreFault (Option Value))
    (attached : Bool) :
    ({ s with attached := attached } : Session).restore store found =
      { s.restore store found with
        session := { (s.restore store found).session with attached := attached } } := by
  unfold restore
  split
  · rfl
  · rfl
  · next doc =>
    simp only []
    cases Catalog.ofDocument s.shorthand doc with
    | error f => rfl
    | ok read => rfl

/-- Loading is all or nothing, whatever the session holds and whatever is at the
    path of the store. The client is told nothing. If the store keeps the document of
    a catalog, the session has just what is read of that document; else it is as it
    was. And for the catalog alone: a document that is read takes the place of any
    catalog, and one that is refused leaves every catalog as it was. -/
theorem reload_whole_or_not (s : Session) (store : Store) (t : FileTree) :
    let o := s.reload store t
    o.events = [] ∧
      (∀ attached, ({ s with attached := attached } : Session).reload store t =
        { o with session := { o.session with attached := attached } }) ∧
      (∀ doc active values, store.Keeps t doc → Catalog.IsDocument doc active values →
        o.session = s.withCatalog ⟨active, Catalog.setsOf s.shorthand values⟩) ∧
      ((¬ ∃ doc active values, store.Keeps t doc ∧ Catalog.IsDocument doc active values) →
        o.session = s) ∧
      ∀ shorthand doc,
        (∃ active values read, Catalog.IsDocument doc active values ∧
          Catalog.ofDocument shorthand doc = .ok read ∧
          ∀ c : Catalog,
            c.apply (.load shorthand doc) = ⟨active, Catalog.setsOf shorthand values⟩) ∨
        ∃ fault, Catalog.ofDocument shorthand doc = .error fault ∧
          ∀ c : Catalog, c.apply (.load shorthand doc) = c := by
  intro o
  refine ⟨s.events_reload store t, fun attached => ?_, fun doc active values hkeeps hdoc => ?_,
    fun h => ?_, Catalog.apply_load_cases⟩
  · simp only [o, reload_eq, restore_attached]
    rfl
  · exact s.session_reload_of_keeps store t doc active values hkeeps hdoc
  · exact s.session_reload_of_not_keeps store t h

/-- A session with a set of its own loads a catalog that was saved, and has that
    one; before it was saved, there was nothing to load. -/
theorem reload_whole_or_not_scratch :
    let store := Store.inDirectory (.ofString "/scratch")
    let s : Session := ⟨⟨none⟩, ⟨"build", [⟨"build", none, []⟩]⟩, true⟩
    let other : Catalog := ⟨"lint", [⟨"lint", none, []⟩]⟩
    let doc := other.toJson ⟨none⟩
    let values := other.sets.map (MarkerSet.toJson ⟨none⟩)
    let saved := (store.save doc .empty).2
    store.Keeps saved doc ∧ Catalog.IsDocument doc "lint" values ∧
      (s.reload store saved).session.catalog = other ∧
      (¬ ∃ doc active values, store.Keeps .empty doc ∧ Catalog.IsDocument doc active values) ∧
      (s.reload store .empty).session = s := by
  intro store s other doc values saved
  have hkeeps : store.Keeps saved doc :=
    store.keeps_save doc .empty (store.writable_of_save .null .empty rfl)
      ((other.readable_toJson ⟨none⟩).mono (by decide))
  have hdoc : Catalog.IsDocument doc "lint" values :=
    (Catalog.documentParts_eq_ok_iff doc _ _).mp (Catalog.documentParts_toJson ⟨none⟩ other)
  have hnone : ¬ ∃ doc active values,
      store.Keeps .empty doc ∧ Catalog.IsDocument doc active values := by
    rintro ⟨_, _, _, ⟨octets, _, hread, _⟩, _⟩
    have hmissing : FileTree.empty.read store.path = .error .notFound := rfl
    exact absurd (hmissing.symm.trans hread) (by simp only [reduceCtorEq, not_false_eq_true])
  have hload := (reload_whole_or_not s store saved).2.2.1 doc "lint" values hkeeps hdoc
  have hstay := (reload_whole_or_not s store .empty).2.2.2.1 hnone
  refine ⟨hkeeps, hdoc, ?_, hnone, hstay⟩
  rw [hload]
  decide

end Session

end SourceMarkers
