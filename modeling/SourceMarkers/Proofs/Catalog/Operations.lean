import SourceMarkers.Proofs.Catalog.Kept

/-!
# Runs of operations

A catalog starts out empty and is changed by five operations, in any order. Names
stay unique in all of it. That a catalog is settled is less than an invariant, as
a document may name an active set that it does not hold.

Still, each operation does one of three things: it loads a document, it leaves
the catalog settled whatever it was before, or it changes nothing. So a catalog
that is not settled is the one that the last document gave, and its active name
stands in that document.

## Main definitions

* `Operation`: What can be done to a catalog.
* `Operation.Loads`: The operation reads a document that is good.
* `Catalog.apply`, `Catalog.run`: Doing it.

## Theorems

* `Catalog.settled_put`, `Catalog.settled_clearActive`,
  `Catalog.settled_activate`: What settles a catalog.
* `Catalog.apply_cases`: What an operation does.
* `Catalog.loaded_of_not_settled`: Where a catalog that is not settled comes
  from.
* `Catalog.settled_run`: What holds of all runs.
-/

namespace SourceMarkers

open Json (Value)

/-- What can be done to a catalog. -/
inductive Operation where
  | clear
  | activate (name : String)
  | put (set : MarkerSet)
  | clearActive
  /-- A document takes the place of the catalog, if it is one of a catalog. -/
  | load (s : Shorthand) (doc : Value)

/-- The operation reads a document that is good. -/
def Operation.Loads (op : Operation) : Prop :=
  ∃ s doc read, op = .load s doc ∧ Catalog.ofDocument s doc = .ok read

namespace Catalog

/-- The catalog after an operation. -/
def apply (c : Catalog) : Operation → Catalog
  | .clear => c.clear
  | .activate name => (c.activate name).value
  | .put set => c.put set
  | .clearActive => c.clearActive
  | .load s doc =>
    match ofDocument s doc with
    | .ok read => read.value
    | .error _ => c

/-- The catalog after some operations. -/
def run (c : Catalog) (ops : List Operation) : Catalog := ops.foldl apply c

theorem run_concat (c : Catalog) (ops : List Operation) (op : Operation) :
    c.run (ops ++ [op]) = (c.run ops).apply op := List.foldl_concat ..

/-- A document that is refused changes nothing. -/
theorem apply_load_of_not_loads (c : Catalog) (s : Shorthand) (doc : Value)
    (h : ¬ (Operation.load s doc).Loads) : c.apply (.load s doc) = c := by
  rw [apply]
  split
  · next read hread => exact absurd ⟨s, doc, read, rfl, hread⟩ h
  · rfl

/-! ## Unique names -/

theorem uniqueNames_apply (c : Catalog) (op : Operation) (h : c.UniqueNames) :
    (c.apply op).UniqueNames := by
  cases op with
  | clear => exact List.nodup_nil
  | activate name => exact uniqueNames_activate c name h
  | put set => exact uniqueNames_put c set h
  | clearActive => exact uniqueNames_clearActive c h
  | load s doc =>
    rw [apply]
    split
    · next read hread => exact (kept_of_ofDocument s doc read hread).unique
    · exact h

theorem uniqueNames_run (ops : List Operation) : (empty.run ops).UniqueNames := by
  induction ops using List.reverseRecOn with
  | nil => exact List.nodup_nil
  | append_singleton ops op ih =>
    rw [run_concat]
    exact uniqueNames_apply _ op ih

/-! ## Settled catalogs -/

theorem settled_empty : empty.Settled := Or.inr ⟨rfl, rfl⟩

/-- The set that was put is there, and it is the active one. -/
theorem settled_put (c : Catalog) (set : MarkerSet) : (c.put set).Settled := by
  refine Or.inl ?_
  show set.name ∈ (upsert set c.sets).map MarkerSet.name
  rw [map_name_upsert]
  split
  · next hold => exact hold
  · exact List.mem_append_right _ List.mem_cons_self

/-- The last of the sets that are left is the active one, if any are left. -/
theorem settled_clearActive (c : Catalog) : c.clearActive.Settled := by
  unfold clearActive
  generalize c.sets.eraseP (fun set => set.name == c.active) = rest
  cases hlast : rest.getLast? with
  | none => exact Or.inr ⟨List.getLast?_eq_none_iff.mp hlast, by simp only [hlast]; rfl⟩
  | some last =>
    refine Or.inl ?_
    simp only [hlast]
    exact List.mem_map_of_mem (List.mem_of_getLast? hlast)

theorem activate_of_mem (c : Catalog) (name : String) (h : name ∈ c.names) :
    (c.activate name).value = { c with active := name } := by
  rw [activate, if_pos h, Logged.value_pure]

theorem activate_of_not_mem (c : Catalog) (name : String) (h : name ∉ c.names) :
    (c.activate name).value = c := by
  rw [activate, if_neg h, Logged.value_bind, Logged.value_pure]

theorem settled_activate (c : Catalog) (name : String) (h : name ∈ c.names) :
    (c.activate name).value.Settled := by
  rw [activate_of_mem c name h]
  exact Or.inl h

/-! ## Steps and runs -/

/-- An operation loads a document, or leaves the catalog settled, or leaves it
    as it was. -/
theorem apply_cases (c : Catalog) (op : Operation) :
    (∃ s doc read, op = .load s doc ∧ ofDocument s doc = .ok read ∧ c.apply op = read.value) ∨
      (c.apply op).Settled ∨ c.apply op = c := by
  cases op with
  | clear => exact Or.inr (Or.inl settled_empty)
  | activate name =>
    -- A name that is not there is ignored.
    by_cases h : name ∈ c.names
    · exact Or.inr (Or.inl (settled_activate c name h))
    · exact Or.inr (Or.inr (activate_of_not_mem c name h))
  | put set => exact Or.inr (Or.inl (settled_put c set))
  | clearActive => exact Or.inr (Or.inl (settled_clearActive c))
  | load s doc =>
    rw [apply]
    cases h : ofDocument s doc with
    | ok read => exact Or.inl ⟨s, doc, read, rfl, h, rfl⟩
    | error f => exact Or.inr (Or.inr rfl)

/-- Whatever loads nothing keeps a catalog settled. -/
theorem settled_apply (c : Catalog) (op : Operation) (hloads : ¬ op.Loads) (h : c.Settled) :
    (c.apply op).Settled := by
  rcases apply_cases c op with ⟨s, doc, read, hop, hread, _⟩ | hsettled | hsame
  · exact absurd ⟨s, doc, read, hop, hread⟩ hloads
  · exact hsettled
  · rwa [hsame]

/-- The active name of a document is a member of it. -/
theorem member?_of_documentParts (doc : Value) (active : String) (values : List Value)
    (h : documentParts doc = .ok (active, values)) :
    doc.member? "active_set" = some (.string active) :=
  ((documentParts_eq_ok_iff doc active values).mp h).1

/-- A catalog that is not settled is the one that a document gave. Nothing that
    came after changed it. -/
theorem loaded_of_not_settled (ops : List Operation) (h : ¬ (empty.run ops).Settled) :
    ∃ before s doc read after, ops = before ++ .load s doc :: after ∧
      ofDocument s doc = .ok read ∧ empty.run ops = read.value := by
  induction ops using List.reverseRecOn with
  | nil => exact absurd settled_empty h
  | append_singleton ops op ih =>
    rw [run_concat] at h ⊢
    rcases apply_cases (empty.run ops) op with ⟨s, doc, read, hop, hread, hvalue⟩ | hsettled | hsame
    · exact ⟨ops, s, doc, read, [], by rw [hop], hread, hvalue⟩
    · exact absurd hsettled h
    · -- The catalog is the one before the last operation.
      rw [hsame] at h ⊢
      rcases ih h with ⟨before, s, doc, read, after, hops, hread, hvalue⟩
      exact ⟨before, s, doc, read, after ++ [op], by rw [hops, List.append_assoc]; rfl, hread,
        hvalue⟩

/-- Whatever is done to a catalog, the names of its sets stay unique, and as long
    as no document is loaded it stays settled. Every operation that loads nothing
    keeps a settled catalog settled. Putting a set, removing the active set and
    removing all settle any catalog, and so does making a set active that is
    there. So an active name that names no set came with a document. -/
theorem settled_run (ops : List Operation) :
    (empty.run ops).UniqueNames ∧
      ((∀ op ∈ ops, ¬ op.Loads) → (empty.run ops).Settled) ∧
      (∀ (c : Catalog) op, ¬ op.Loads → c.Settled → (c.apply op).Settled) ∧
      (∀ (c : Catalog) set, (c.apply (.put set)).Settled) ∧
      (∀ c : Catalog, (c.apply .clearActive).Settled) ∧
      (∀ c : Catalog, (c.apply .clear).Settled) ∧
      (∀ (c : Catalog) name, name ∈ c.names → (c.apply (.activate name)).Settled) ∧
      (¬ (empty.run ops).Settled →
        ∃ before s doc read after, ops = before ++ .load s doc :: after ∧
          ofDocument s doc = .ok read ∧ empty.run ops = read.value ∧
          doc.member? "active_set" = some (.string (empty.run ops).active)) := by
  refine ⟨uniqueNames_run ops, fun hloads => ?_, settled_apply, settled_put, settled_clearActive,
    fun _ => settled_empty, settled_activate, fun h => ?_⟩
  · by_contra h
    rcases loaded_of_not_settled ops h with ⟨before, s, doc, read, after, hops, hread, _⟩
    refine hloads (.load s doc) ?_ ⟨s, doc, read, rfl, hread⟩
    rw [hops]
    exact List.mem_append_right _ List.mem_cons_self
  · rcases loaded_of_not_settled ops h with ⟨before, s, doc, read, after, hops, hread, hvalue⟩
    refine ⟨before, s, doc, read, after, hops, hread, hvalue, ?_⟩
    rcases value_of_ofDocument s doc read hread with ⟨active, values, hparts, hloaded⟩
    rw [hvalue, hloaded]
    exact member?_of_documentParts doc active values hparts

/-- A set is put, a document is refused, another one names an active set that it
    does not hold, and then a name that is not there is to become active. -/
theorem settled_run_dangling :
    let lint : MarkerSet := ⟨"lint", none, []⟩
    let doc : Value := .object [("active_set", .string "gone"), ("sets", .array [
      .object [("name", .string "lint"), ("base_path", .null), ("markers", .array [])]])]
    let settled : List Operation := [.put lint, .load .verbatim .null]
    let ops := settled ++ [.load .verbatim doc, .activate "gone"]
    (∀ op ∈ settled, ¬ op.Loads) ∧ (empty.run settled).Settled ∧
      ¬ (empty.run ops).Settled ∧
      (∃ s doc, .load s doc ∈ ops ∧ doc.member? "active_set" = some (.string "gone")) ∧
      ((empty.run ops).apply (.activate "lint")).Settled := by
  intro lint doc settled ops
  have hloads : ∀ op ∈ settled, ¬ op.Loads := by
    rintro op hop ⟨s, other, read, rfl, hread⟩
    simp only [settled, List.mem_cons, reduceCtorEq, Operation.load.injEq, List.not_mem_nil,
      or_false, false_or] at hop
    rw [hop.2] at hread
    exact absurd hread (by simp only [ofDocument, documentParts, Except.map, reduceCtorEq,
      not_false_eq_true])
  have hname : "lint" ∈ (empty.run ops).names := by decide
  have hsettled : ¬ (empty.run ops).Settled := by unfold Settled; decide
  rcases settled_run settled with ⟨_, hkept, _⟩
  rcases settled_run ops with ⟨_, _, _, _, _, _, hactivate, hdangling⟩
  rcases hdangling hsettled with ⟨before, s, source, read, after, hops, _, _, hsource⟩
  refine ⟨hloads, hkept hloads, hsettled, ⟨s, source, ?_, hsource⟩, hactivate _ _ hname⟩
  rw [hops]
  exact List.mem_append_right _ List.mem_cons_self

end Catalog

end SourceMarkers
