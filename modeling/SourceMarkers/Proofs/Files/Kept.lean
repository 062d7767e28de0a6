import SourceMarkers.Files.Store
import SourceMarkers.Proofs.Files.Write
import SourceMarkers.Proofs.Json.RoundTrip
import SourceMarkers.Text.Utf8.RoundTrip

/-!
# Documents that were kept

A store is writable in a tree when saving goes through there, whatever the
document. This says that the directory of the store is there or can be made,
and that no directory stands where the file goes; what the file holds at the
time, or whether it is there at all, plays no part. A store that was saved to
stays writable, and loading from it gives the document that was saved, as long
as its text reads back.

Loading goes through a reading of the file, through UTF-8 and through JSON, and
any of these may fail. `Store.Keeps` says in one place that none of them does;
a store that keeps an object is the only one that gives a document.

## Main definitions

* `Store.Writable`: Saving goes through.
* `Store.Keeps`: The file holds the text of a value.

## Theorems

* `Store.writable_of_save`: One document that can be saved shows it for all.
* `Store.writable_save`, `Store.writable_overwritten`: A store stays writable.
* `Store.read_save`: The file holds the text of the document.
* `Store.load_of_save`, `Store.load_save`: Loading gives the document.
* `Store.load_eq_ok_iff`: When loading gives a document.
* `Store.keeps_save`: What was saved is kept.
-/

namespace SourceMarkers

open Json (Value)

namespace Store

/-- Saving to the store goes through, whatever the document. -/
def Writable (store : Store) (t : FileTree) : Prop :=
  ∀ doc, (store.save doc t).1.value = .ok ()

/-- Saving goes through when the directory is made and the file is written. -/
theorem save_eq_ok (store : Store) (doc : Value) (t : FileTree)
    (h : (store.save doc t).1.value = .ok ()) :
    ∃ made, store.makeDirectory t = (.ok (), made) ∧
      made.write store.path (textOf doc) = .ok (store.save doc t).2 ∧
      (store.save doc t).1 = (do store.tellSaved; pure (.ok ())) := by
  rw [save_eq] at h ⊢
  rcases hmade : store.makeDirectory t with ⟨made?, made⟩
  rw [hmade] at h
  cases made? with
  | error f => exact absurd h (by simp only [Logged.value_pure, reduceCtorEq, not_false_eq_true])
  | ok u =>
    refine ⟨made, rfl, ?_⟩
    cases hwrite : made.write store.path (textOf doc) with
    | error f =>
      simp only [hwrite] at h
      exact absurd h (by simp only [Logged.value_pure, reduceCtorEq, not_false_eq_true])
    | ok t' =>
      simp only [hwrite]
      exact ⟨trivial, trivial⟩

theorem save_of_write (store : Store) (doc : Value) (t made t' : FileTree)
    (hmade : store.makeDirectory t = (.ok (), made))
    (hwrite : made.write store.path (textOf doc) = .ok t') :
    (store.save doc t).1.value = .ok () := by
  rw [save_eq, hmade]
  simp only [hwrite, Logged.value_bind, Logged.value_pure]

/-- Whether saving goes through does not depend on the document. -/
theorem writable_of_save (store : Store) (doc : Value) (t : FileTree)
    (h : (store.save doc t).1.value = .ok ()) : store.Writable t := by
  intro other
  rcases save_eq_ok store doc t h with ⟨made, hmade, hwrite, _⟩
  rcases (FileTree.write_eq_ok made store.path _ _).mp hwrite with ⟨slot, hslot, _⟩
  -- The slot for one content is the slot for any other.
  have hother : made.write store.path (textOf other) =
      .ok (made.setNode slot.place (.file (textOf other))) :=
    (FileTree.write_eq_ok made store.path _ _).mpr ⟨slot, hslot, rfl⟩
  exact save_of_write store other t made _ hmade hother

/-- A directory that was made is not made again, as long as it stays. -/
theorem makeDirectory_again (store : Store) (t made t' : FileTree)
    (h : store.makeDirectory t = (.ok (), made))
    (hdirs : ∀ place, made.node? place = some .directory → t'.node? place = some .directory) :
    store.makeDirectory t' = (.ok (), t') := by
  rw [makeDirectory_eq] at h ⊢
  cases hparent : store.path.parent? with
  | none => rfl
  | some directory =>
    rw [hparent] at h
    exact FileTree.createDirectories_again t made t' directory h hdirs

/-- Where the directory was made and the file was written, with whatever content,
    the directory is there and saving goes through. -/
theorem writable_of_write (store : Store) (t made t' : FileTree) (content : List UInt8)
    (hmade : store.makeDirectory t = (.ok (), made))
    (hwrite : made.write store.path content = .ok t') :
    store.makeDirectory t' = (.ok (), t') ∧ store.Writable t' := by
  have hagain := store.makeDirectory_again t made t' hmade
    (FileTree.dirs_of_write made t' store.path content hwrite)
  refine ⟨hagain, fun doc => ?_⟩
  rcases FileTree.write_of_write made t' store.path content (textOf doc) hwrite with
    ⟨more, hmore⟩
  exact save_of_write store doc t' t' more hagain hmore

/-- A store that was saved to stays writable. -/
theorem writable_save (store : Store) (doc : Value) (t : FileTree) (h : store.Writable t) :
    store.Writable (store.save doc t).2 := by
  rcases save_eq_ok store doc t (h doc) with ⟨made, hmade, hwrite, _⟩
  exact (store.writable_of_write t made _ _ hmade hwrite).2

/-- It does so when the file is written over afterwards. -/
theorem writable_overwritten (store : Store) (doc : Value) (t t' : FileTree)
    (content : List UInt8) (h : store.Writable t)
    (hwrite : (store.save doc t).2.write store.path content = .ok t') : store.Writable t' := by
  rcases save_eq_ok store doc t (h doc) with ⟨made, hmade, hsaved, _⟩
  have hagain := (store.writable_of_write t made _ _ hmade hsaved).1
  exact (store.writable_of_write _ _ t' content hagain hwrite).2

/-- After saving, the file holds the text of the document. -/
theorem read_save (store : Store) (doc : Value) (t : FileTree) (h : store.Writable t) :
    (store.save doc t).2.read store.path = .ok (textOf doc) := by
  rcases save_eq_ok store doc t (h doc) with ⟨made, _, hwrite, _⟩
  exact FileTree.read_of_write made _ store.path (textOf doc) hwrite

/-- The text of an object is read as the object. -/
theorem documentOf_textOf (store : Store) (members : List (String × Value))
    (h : (Value.object members).Readable Json.depthLimit) :
    store.documentOf (textOf (.object members)) = .ok (.object members) := by
  unfold documentOf textOf
  rw [Utf8.decode_encode]
  simp only [Json.parseChars_chars _ h]

/-- After saving, loading goes by the text of the document and by nothing else. -/
theorem load_of_save (store : Store) (doc : Value) (t : FileTree) (h : store.Writable t) :
    store.load (store.save doc t).2 = pure ((store.documentOf (textOf doc)).map some) := by
  have hread := store.read_save doc t h
  rw [load_eq, FileTree.content, FileTree.exists?_of_read _ store.path _ hread, if_pos rfl, hread]
  rfl

/-- After saving an object whose text reads back, loading gives the object. -/
theorem load_save (store : Store) (members : List (String × Value)) (t : FileTree)
    (h : store.Writable t) (hread : (Value.object members).Readable Json.depthLimit) :
    store.load (store.save (.object members) t).2 = pure (.ok (some (.object members))) := by
  rw [store.load_of_save _ t h, store.documentOf_textOf members hread]
  rfl

/-! ## What a store keeps -/

/-- There is a file at the path of the store, and its octets are the text of a
    JSON value. -/
def Keeps (store : Store) (t : FileTree) (doc : Value) : Prop :=
  ∃ octets cs, t.read store.path = .ok octets ∧ Utf8.decode octets = .ok cs ∧
    Json.parseChars cs = .ok doc

theorem documentOf_eq_ok_iff (store : Store) (octets : List UInt8) (doc : Value) :
    store.documentOf octets = .ok doc ↔
      ∃ cs members, Utf8.decode octets = .ok cs ∧ Json.parseChars cs = .ok doc ∧
        doc = .object members := by
  unfold documentOf
  constructor
  · intro h
    split at h
    · exact absurd h (by simp only [reduceCtorEq, not_false_eq_true])
    · next cs hdecode =>
      split at h
      · exact absurd h (by simp only [reduceCtorEq, not_false_eq_true])
      · next members hparse =>
        rw [← Except.ok.inj h]
        exact ⟨cs, members, hdecode, hparse, rfl⟩
      · exact absurd h (by simp only [reduceCtorEq, not_false_eq_true])
  · rintro ⟨cs, members, hdecode, hparse, rfl⟩
    simp only [hdecode, hparse]

/-- Loading gives a document just when the store keeps it and it is an object. -/
theorem load_eq_ok_iff (store : Store) (t : FileTree) (doc : Value) :
    (store.load t).value = .ok (some doc) ↔
      store.Keeps t doc ∧ ∃ members, doc = .object members := by
  rw [load_eq, FileTree.content]
  constructor
  · intro h
    split at h
    · cases hread : t.read store.path with
      | error f =>
        rw [hread] at h
        exact absurd h (by simp only [interpret, Logged.value_pure, reduceCtorEq, not_false_eq_true])
      | ok octets =>
        rw [hread] at h
        cases hdoc : store.documentOf octets with
        | error f =>
          simp only [interpret, hdoc, Logged.value_pure, Except.map, reduceCtorEq] at h
        | ok found =>
          simp only [interpret, hdoc, Logged.value_pure, Except.map, Except.ok.injEq,
            Option.some.injEq] at h
          rw [h, documentOf_eq_ok_iff] at hdoc
          rcases hdoc with ⟨cs, members, hdecode, hparse, hobject⟩
          exact ⟨⟨octets, cs, hread, hdecode, hparse⟩, members, hobject⟩
    · -- Where there is nothing, no document is found.
      simp only [interpret, Logged.value_bind, Logged.value_pure, Except.ok.injEq,
        reduceCtorEq] at h
  · rintro ⟨⟨octets, cs, hread, hdecode, hparse⟩, members, hobject⟩
    have hdoc := (documentOf_eq_ok_iff store octets doc).mpr ⟨cs, members, hdecode, hparse, hobject⟩
    rw [FileTree.exists?_of_read t store.path octets hread, if_pos rfl, hread]
    simp only [interpret, hdoc, Logged.value_pure, Except.map]

/-- What was saved is kept, if its text reads back. -/
theorem keeps_save (store : Store) (doc : Value) (t : FileTree) (h : store.Writable t)
    (hread : doc.Readable Json.depthLimit) : store.Keeps (store.save doc t).2 doc :=
  ⟨_, _, store.read_save doc t h, Utf8.decode_encode _, Json.parseChars_chars doc hread⟩

end Store

end SourceMarkers
