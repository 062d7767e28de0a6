import SourceMarkers.Proofs.Files.Kept
import SourceMarkers.Proofs.Json.Reading

/-!
# Documents that come back

What was saved is what is loaded. A document may hold any texts, any numbers that are
read as whole ones, and members of any names, in as many brackets inside each other
as a reader opens. Of what the file held before nothing is left, as a file is always
written as a whole; so it does not matter whether that was a document, another text,
or no text at all.

A value that is no object is written all the same. Its text is a good one, and the
reader takes it; only then the store refuses it. So the two kinds of values part after
the reading, and what holds of the text is proved of both at once.

The limit of the brackets is that of the reader, and the writer has none. A document
that is too deep is saved without a word and does not come back.

## Main definitions

* `Value.IsObject`: The value is an object.
* `Store.saveAll`: Saving one document after the other.

## Theorems

* `Store.documentOf_textOf_of_not_isObject`: The text of any other value is refused.
* `Store.load_save_eq_some_iff`: Which documents come back.
* `Store.load_after_save`: What was saved is loaded.
* `Store.load_saveAll`: The last one counts.
-/

namespace SourceMarkers

open Json (Value)

/-- The value is an object. -/
def Json.Value.IsObject (v : Value) : Prop := ∃ members, v = .object members

namespace Store

/-- The text of a value that is no object is read, and then refused. -/
theorem documentOf_textOf_of_not_isObject (store : Store) (doc : Value)
    (h : doc.Readable Json.depthLimit) (hother : ¬ doc.IsObject) :
    store.documentOf (textOf doc) = .error .notAnObject := by
  unfold documentOf textOf
  rw [Utf8.decode_encode]
  simp only [Json.parseChars_chars _ h]
  cases doc with
  | object members => exact absurd ⟨members, rfl⟩ hother
  | null => rfl
  | bool b => rfl
  | number n => rfl
  | string s => rfl
  | array items => rfl

/-- After saving, an object whose text reads back is loaded, and any other value of
    this kind is refused. -/
theorem load_save_readable (store : Store) (doc : Value) (t : FileTree)
    (h : store.Writable t) (hread : doc.Readable Json.depthLimit) :
    (doc.IsObject → store.load (store.save doc t).2 = pure (.ok (some doc))) ∧
      (¬ doc.IsObject → store.load (store.save doc t).2 = pure (.error .notAnObject)) := by
  constructor
  · rintro ⟨members, rfl⟩
    exact store.load_save members t h hread
  · intro hother
    rw [store.load_of_save doc t h, store.documentOf_textOf_of_not_isObject doc hread hother]
    rfl

/-- Of the values without doubles, those that come back are the objects that are not
    deeper than a reader goes. -/
theorem load_save_eq_some_iff (store : Store) (doc : Value) (t : FileTree)
    (h : store.Writable t) (hwhole : doc.Whole) (hordered : doc.Ordered) :
    (store.load (store.save doc t).2).value = .ok (some doc) ↔
      doc.IsObject ∧ doc.depth ≤ Json.depthLimit := by
  constructor
  · intro hload
    rcases (store.load_eq_ok_iff _ doc).mp hload with ⟨⟨_, cs, _, _, hparse⟩, hobject⟩
    -- The document was given by the reader, and this one gives nothing deeper.
    exact ⟨hobject, (Json.given_of_parseChars cs doc hparse).shallow⟩
  · rintro ⟨hobject, hdepth⟩
    rw [(store.load_save_readable doc t h ⟨hwhole, hordered, hdepth⟩).1 hobject]
    rfl

/-- Once a value was saved, the file holds its text, whatever was there before. If the
    value is an object, loading gives it back as it was, and without a word; if not,
    loading refuses it for that and for no other reason. And if something else comes
    into the file later on, the value can be saved again, and the file is as before. -/
theorem load_after_save (store : Store) (doc : Value) (t : FileTree)
    (hsaved : (store.save doc t).1.value = .ok ())
    (hwhole : doc.Whole) (hordered : doc.Ordered) (hdepth : doc.depth ≤ 127) :
    let kept := (store.save doc t).2
    kept.read store.path = .ok (textOf doc) ∧
      (doc.IsObject → store.load kept = pure (.ok (some doc))) ∧
      (¬ doc.IsObject → store.load kept = pure (.error .notAnObject)) ∧
      ∀ content t', kept.write store.path content = .ok t' →
        (store.save doc t').1.value = .ok () ∧
          (store.save doc t').2.read store.path = kept.read store.path := by
  intro kept
  have hstore : store.Writable t := store.writable_of_save doc t hsaved
  have hread : kept.read store.path = .ok (textOf doc) := store.read_save doc t hstore
  rcases store.load_save_readable doc t hstore ⟨hwhole, hordered, hdepth⟩ with ⟨hobject, hother⟩
  refine ⟨hread, hobject, hother, fun content t' hwrite => ?_⟩
  have hagain : store.Writable t' := store.writable_overwritten doc t t' content hstore hwrite
  exact ⟨hagain doc, (store.read_save doc t' hagain).trans hread.symm⟩

/-- A document with the least and the greatest number, an empty name and texts that need
    escapes, and the list of it, in a file that was no text before. -/
theorem load_after_save_extremes :
    let store : Store := ⟨.ofString "/kept"⟩
    let t : FileTree := FileTree.empty.setNode [(Path.ofString "kept").octets] (.file [0xFF])
    let doc : Value := .object [("", .array [.ofInt (-0x8000000000000000),
      .ofInt 0xFFFFFFFFFFFFFFFF]), ("\"\n", .object [("é", .string "\\\t")])]
    t.read store.path = .ok [0xFF] ∧ (store.save doc t).1.value = .ok () ∧
      store.load (store.save doc t).2 = pure (.ok (some doc)) ∧
      store.load (store.save (.array [doc]) t).2 = pure (.error .notAnObject) := by
  intro store t doc
  have hstore : store.Writable t := store.writable_of_save .null t rfl
  have hinner : ∀ m ∈ [("é", Value.string "\\\t")], m.2.Readable 1 := by
    simp only [List.forall_mem_cons]
    exact ⟨Value.readable_string 1 _, List.forall_mem_nil _⟩
  have hnumbers : ∀ v ∈ [Value.ofInt (-0x8000000000000000), .ofInt 0xFFFFFFFFFFFFFFFF],
      v.Readable 1 := by
    simp only [List.forall_mem_cons]
    exact ⟨Value.readable_ofInt 1 _ ⟨by decide, by decide⟩,
      Value.readable_ofInt 1 _ ⟨by decide, by decide⟩, List.forall_mem_nil _⟩
  have hdoc : doc.Readable 3 := by
    refine (Value.readable_object_iff 2 _).mpr ⟨by decide, ?_⟩
    simp only [List.forall_mem_cons]
    exact ⟨(Value.readable_array_iff 1 _).mpr hnumbers,
      (Value.readable_object_iff 1 _).mpr ⟨by decide, hinner⟩, List.forall_mem_nil _⟩
  have hlist : (Value.array [doc]).Readable 4 := by
    refine (Value.readable_array_iff 3 _).mpr ?_
    simp only [List.forall_mem_cons]
    exact ⟨hdoc, List.forall_mem_nil _⟩
  have hsaved : (store.save doc t).1.value = .ok () := hstore doc
  rcases store.load_after_save doc t hsaved hdoc.whole hdoc.ordered
    (Nat.le_trans hdoc.shallow (by decide)) with ⟨_, hobject, _, _⟩
  rcases store.load_after_save (.array [doc]) t (hstore _) hlist.whole hlist.ordered
    (Nat.le_trans hlist.shallow (by decide)) with ⟨_, _, hother, _⟩
  refine ⟨by decide, hsaved, hobject ⟨_, rfl⟩, hother ?_⟩
  rintro ⟨members, hmembers⟩
  exact absurd hmembers (by simp only [reduceCtorEq, not_false_eq_true])

/-! ## One document after the other -/

/-- Saves one document after the other. -/
def saveAll (store : Store) (docs : List Value) (t : FileTree) : FileTree :=
  docs.foldl (fun t doc => (store.save doc t).2) t

theorem writable_saveAll (store : Store) (docs : List Value) (t : FileTree)
    (h : store.Writable t) : store.Writable (store.saveAll docs t) := by
  induction docs generalizing t with
  | nil => exact h
  | cons doc rest ih => exact ih _ (store.writable_save doc t h)

/-- Of the documents that were saved one after the other, the last one is loaded. What
    the others are, and whether they could be read back, does not matter. -/
theorem load_saveAll (store : Store) (docs : List Value) (last : Value) (t : FileTree)
    (h : store.Writable t) (hobject : last.IsObject) (hread : last.Readable Json.depthLimit) :
    store.load (store.saveAll (docs ++ [last]) t) = pure (.ok (some last)) := by
  have hbefore := store.writable_saveAll docs t h
  rw [saveAll, List.foldl_append, List.foldl_cons, List.foldl_nil]
  exact (store.load_save_readable last _ hbefore hread).1 hobject

end Store

end SourceMarkers
