import SourceMarkers.Proofs.Catalog.Clearing

/-!
# What the history says of a catalog

A catalog can be told from the operations that made it, without a list of sets to
keep. Under a name stands the set that was last put with it, unless the name was
removed since. The sets stand in the order in which their names came: a name comes
when it is put for the first time, or for the first time after it was removed, and
putting it again does not move it. The active name is up to the last operation that
had a say in it.

All of this is said about moments. The moment `i` of a run is the operation at
place `i`, together with the catalog that the operations before it have made;
whether a name is removed there depends on both. The proofs go along the run: one
more operation adds one moment, and changes nothing about the earlier ones
(`happens_concat`).

Runs in which a document is loaded are left out, as the sets of a document come
from no operation.

## Main definitions

* `Operation.Puts`, `Operation.Removes`: What an operation does to a name.
* `Operation.Decides`, `Operation.choice`: What it does to the active name.
* `Catalog.Happens`: What happens at a moment of a run.
* `Catalog.LastPut`: The moment at which a set was put that is still there.
* `Catalog.Came`: The moment at which a name came.

## Theorems

* `Catalog.find?_apply_iff`, `Catalog.mem_names_apply_iff`,
  `Catalog.active_apply`: One operation.
* `Catalog.Came.unique`: A name came once.
* `Catalog.find?_run_iff`, `Catalog.pairwise_came_run`, `Catalog.active_run`: A
  run.
* `Catalog.run_history`: The catalog of a history.
-/

namespace SourceMarkers

namespace Operation

/-- The operation puts a set with the name. -/
def Puts (name : String) : Operation → Prop
  | .put set => set.name = name
  | _ => False

/-- Done to a catalog, the operation removes the name: all names go, or the one
    of the active set. -/
def Removes (name : String) (c : Catalog) : Operation → Prop
  | .clear => True
  | .clearActive => c.active = name ∧ name ∈ c.names
  | _ => False

/-- Done to a catalog, the operation has a say in which set is active. A name
    that is not there cannot be made active. -/
def Decides (c : Catalog) : Operation → Prop
  | .activate name => name ∈ c.names
  | .load _ _ => False
  | _ => True

/-- The name that is active after an operation, with the names that are there
    after it. -/
def choice (names : List String) : Operation → String
  | .put set => set.name
  | .activate name => name
  | _ => names.getLast?.getD ""

theorem not_removes_of_puts {op : Operation} {name other : String} {c : Catalog}
    (h : op.Puts name) : ¬ op.Removes other c := by
  cases op with
  | put set => exact id
  | _ => exact absurd h id

end Operation

namespace Catalog

/-! ## One operation -/

theorem mem_names_iff (c : Catalog) (name : String) :
    name ∈ c.names ↔ ∃ set, c.find? name = some set := by
  rw [← Option.isSome_iff_exists, find?, List.find?_isSome, names, List.mem_map]
  simp only [beq_iff_eq]

theorem name_of_find? (c : Catalog) (name : String) (set : MarkerSet)
    (h : c.find? name = some set) : set.name = name := by
  have hname := List.find?_some h
  exact beq_iff_eq.mp hname

/-- With unique names, every set is found under its name. -/
theorem find?_eq_some_iff (c : Catalog) (hnames : c.UniqueNames) (name : String)
    (set : MarkerSet) : c.find? name = some set ↔ set ∈ c.sets ∧ set.name = name := by
  constructor
  · intro h
    exact ⟨List.mem_of_find?_eq_some h, c.name_of_find? name set h⟩
  · rintro ⟨hset, rfl⟩
    rcases (c.mem_names_iff set.name).mp (List.mem_map_of_mem hset) with ⟨found, hfound⟩
    have hsame : found = set :=
      List.inj_on_of_nodup_map hnames (List.mem_of_find?_eq_some hfound) hset
        (c.name_of_find? set.name found hfound)
    rw [hfound, hsame]

/-- A set that is put is found under its name, and changes nothing under
    others. -/
theorem find?_put (c : Catalog) (set : MarkerSet) (name : String) :
    (c.put set).find? name = if set.name = name then some set else c.find? name := by
  by_cases hname : set.name = name
  · rw [if_pos hname, ← hname]
    exact find?_upsert_self set c.sets
  · rw [if_neg hname]
    show (upsert set c.sets).find? _ = c.sets.find? _
    induction c.sets with
    | nil => rw [upsert, List.find?_cons, beq_eq_false_iff_ne.mpr hname]
    | cons held rest ih =>
      rw [upsert]
      by_cases hheld : held.name = set.name
      · rw [if_pos hheld, List.find?_cons, List.find?_cons, hheld, beq_eq_false_iff_ne.mpr hname]
      · rw [if_neg hheld, List.find?_cons, List.find?_cons, ih]

/-- What an operation does under one name: a set that is put is there, a set that
    is removed is not, and anything else is as before. -/
theorem find?_apply_iff (c : Catalog) (op : Operation) (hnames : c.UniqueNames)
    (hloads : ¬ op.Loads) (name : String) (set : MarkerSet) :
    (c.apply op).find? name = some set ↔
      (op = .put set ∧ set.name = name) ∨
        (c.find? name = some set ∧ ¬ op.Puts name ∧ ¬ op.Removes name c) := by
  cases op with
  | clear =>
    constructor
    · exact fun h => absurd h (Option.some_ne_none set).symm
    · rintro (⟨h, _⟩ | ⟨_, _, h⟩)
      · exact absurd h (by simp only [reduceCtorEq, not_false_eq_true])
      · exact absurd trivial h
  | activate other =>
    have hsame : (c.apply (.activate other)).find? name = c.find? name := by
      rw [apply, activate]
      split <;> rfl
    simp only [hsame, Operation.Puts, Operation.Removes, reduceCtorEq, false_and, false_or,
      not_false_eq_true, and_true]
  | put other =>
    rw [apply, find?_put]
    simp only [Operation.put.injEq, Operation.Puts, Operation.Removes, not_false_eq_true, and_true]
    by_cases hname : other.name = name
    · rw [if_pos hname, Option.some.injEq]
      constructor
      · rintro rfl
        exact Or.inl ⟨rfl, hname⟩
      · rintro (h | h)
        · exact h.1
        · exact absurd hname h.2
    · rw [if_neg hname]
      constructor
      · exact fun h => Or.inr ⟨h, hname⟩
      · rintro (⟨rfl, h⟩ | h)
        · exact absurd h hname
        · exact h.1
  | clearActive =>
    rw [apply, find?_eq_some_iff _ (uniqueNames_clearActive c hnames),
      find?_eq_some_iff c hnames, clearActive_eq c hnames]
    show set ∈ c.sets.filter (fun set => set.name != c.active) ∧ _ ↔ _
    rw [List.mem_filter, bne_iff_ne]
    simp only [reduceCtorEq, false_and, false_or, Operation.Puts, Operation.Removes,
      not_false_eq_true, true_and]
    constructor
    · rintro ⟨⟨hset, hne⟩, rfl⟩
      exact ⟨⟨hset, rfl⟩, fun h => hne h.1.symm⟩
    · rintro ⟨⟨hset, rfl⟩, hkept⟩
      exact ⟨⟨hset, fun h => hkept ⟨h.symm, List.mem_map_of_mem hset⟩⟩, rfl⟩
  | load s doc =>
    rw [apply_load_of_not_loads c s doc hloads]
    simp only [Operation.Puts, Operation.Removes, reduceCtorEq, false_and, false_or,
      not_false_eq_true, and_true]

/-- What an operation does to the names. -/
theorem mem_names_apply_iff (c : Catalog) (op : Operation) (hnames : c.UniqueNames)
    (hloads : ¬ op.Loads) (name : String) :
    name ∈ (c.apply op).names ↔ op.Puts name ∨ (name ∈ c.names ∧ ¬ op.Removes name c) := by
  rw [mem_names_iff, mem_names_iff]
  constructor
  · rintro ⟨set, h⟩
    rcases (find?_apply_iff c op hnames hloads name set).mp h with ⟨rfl, hname⟩ | ⟨h, _, hkept⟩
    · exact Or.inl hname
    · exact Or.inr ⟨⟨set, h⟩, hkept⟩
  · intro h
    by_cases hputs : op.Puts name
    · cases op with
      | put set =>
        exact ⟨set, (find?_apply_iff c _ hnames hloads name set).mpr (Or.inl ⟨rfl, hputs⟩)⟩
      | _ => exact absurd hputs id
    · rcases h with h | ⟨⟨set, h⟩, hkept⟩
      · exact absurd h hputs
      · exact ⟨set, (find?_apply_iff c op hnames hloads name set).mpr (Or.inr ⟨h, hputs, hkept⟩)⟩

/-- A new name goes to the end, and no operation changes the order of the names. -/
theorem names_apply_cases (c : Catalog) (op : Operation) (hloads : ¬ op.Loads) :
    (∃ set, op = .put set ∧ set.name ∉ c.names ∧ (c.apply op).names = c.names ++ [set.name]) ∨
      (c.apply op).names.Sublist c.names := by
  cases op with
  | clear => exact Or.inr (List.nil_sublist _)
  | activate name =>
    refine Or.inr ?_
    rw [apply, activate]
    split <;> exact List.Sublist.refl _
  | put set =>
    have hput : (c.apply (.put set)).names =
        if set.name ∈ c.names then c.names else c.names ++ [set.name] := map_name_upsert set c.sets
    by_cases hold : set.name ∈ c.names
    · rw [hput, if_pos hold]
      exact Or.inr (List.Sublist.refl _)
    · rw [hput, if_neg hold]
      exact Or.inl ⟨set, rfl, hold, rfl⟩
  | clearActive => exact Or.inr (List.eraseP_sublist.map MarkerSet.name)
  | load s doc =>
    rw [apply_load_of_not_loads c s doc hloads]
    exact Or.inr (List.Sublist.refl _)

theorem active_apply (c : Catalog) (op : Operation) (h : op.Decides c) :
    (c.apply op).active = op.choice (c.apply op).names := by
  cases op with
  | clear => rfl
  | activate name =>
    rw [apply, activate_of_mem c name h]
    rfl
  | put set => rfl
  | clearActive =>
    show _ = (c.clearActive.sets.map MarkerSet.name).getLast?.getD ""
    rw [List.getLast?_map]
    rfl
  | load s doc => exact absurd h id

theorem apply_of_not_decides (c : Catalog) (op : Operation) (hloads : ¬ op.Loads)
    (h : ¬ op.Decides c) : c.apply op = c := by
  cases op with
  | activate name => exact activate_of_not_mem c name h
  | load s doc => exact apply_load_of_not_loads c s doc hloads
  | _ => exact absurd trivial h

/-! ## Moments of a run -/

/-- What is done at the moment `i` of a run, and the catalog that it is done to. -/
def Happens (ops : List Operation) (i : Nat) (p : Catalog → Operation → Prop) : Prop :=
  ∃ op, ops[i]? = some op ∧ p (empty.run (ops.take i)) op

theorem Happens.lt {ops : List Operation} {i : Nat} {p : Catalog → Operation → Prop}
    (h : Happens ops i p) : i < ops.length := by
  rcases h with ⟨op, hop, _⟩
  exact (List.getElem?_eq_some_iff.mp hop).1

/-- One more operation adds one moment at the end of the run. -/
theorem happens_concat (ops : List Operation) (op : Operation) (i : Nat)
    (p : Catalog → Operation → Prop) :
    Happens (ops ++ [op]) i p ↔ Happens ops i p ∨ (i = ops.length ∧ p (empty.run ops) op) := by
  rcases Nat.lt_trichotomy i ops.length with hlt | rfl | hgt
  · rw [Happens, List.getElem?_append_left hlt, List.take_append_of_le_length hlt.le]
    exact ⟨Or.inl, fun h => h.elim id fun h => absurd h.1 hlt.ne⟩
  · rw [Happens, List.getElem?_concat_length, List.take_left]
    constructor
    · rintro ⟨other, hother, h⟩
      rw [Option.some.inj hother]
      exact Or.inr ⟨rfl, h⟩
    · rintro (h | h)
      · exact absurd h.lt (Nat.lt_irrefl _)
      · exact ⟨op, rfl, h.2⟩
  · constructor
    · intro h
      have hlt := h.lt
      rw [List.length_append, List.length_singleton] at hlt
      exact absurd hlt (by omega)
    · rintro (h | h)
      · exact absurd h.lt (by omega)
      · exact absurd h.1 (by omega)

/-- Nothing happens behind the last moment. -/
theorem not_happens_later (ops : List Operation) (op : Operation) (j : Nat)
    (p : Catalog → Operation → Prop) (hj : ops.length < j) : ¬ Happens (ops ++ [op]) j p := by
  intro h
  have hlt := h.lt
  rw [List.length_append, List.length_singleton] at hlt
  omega

/-- What did not happen later, and is not done now, has not happened later. -/
theorem not_happens_concat {ops : List Operation} {op : Operation}
    {p : Catalog → Operation → Prop} {j : Nat} (h : ¬ Happens ops j p)
    (hop : ¬ p (empty.run ops) op) : ¬ Happens (ops ++ [op]) j p := by
  rw [happens_concat]
  rintro (hold | hnew)
  · exact h hold
  · exact hop hnew.2

/-! ## What stands under a name -/

/-- The set was put at a moment and is still there: no other was put with its name
    later, and the name was not removed later. -/
structure LastPut (ops : List Operation) (set : MarkerSet) (i : Nat) : Prop where
  put : Happens ops i fun _ op => op = .put set
  latest : ∀ j, i < j → ¬ Happens ops j fun _ op => op.Puts set.name
  kept : ∀ j, i < j → ¬ Happens ops j fun c op => op.Removes set.name c

theorem exists_lastPut_concat_iff (ops : List Operation) (op : Operation) (set : MarkerSet) :
    (∃ i, LastPut (ops ++ [op]) set i) ↔
      op = .put set ∨
        ((∃ i, LastPut ops set i) ∧ ¬ op.Puts set.name ∧ ¬ op.Removes set.name (empty.run ops)) := by
  constructor
  · rintro ⟨i, hput, hlatest, hkept⟩
    rcases (happens_concat ops op i _).mp hput with hold | ⟨rfl, hnew⟩
    · -- The last operation came later, so it is none that ends it.
      have hi := hold.lt
      refine Or.inr ⟨⟨i, hold, fun j hj h => ?_, fun j hj h => ?_⟩, fun h => ?_, fun h => ?_⟩
      · exact hlatest j hj ((happens_concat ops op j _).mpr (Or.inl h))
      · exact hkept j hj ((happens_concat ops op j _).mpr (Or.inl h))
      · exact hlatest _ hi ((happens_concat ops op _ _).mpr (Or.inr ⟨rfl, h⟩))
      · exact hkept _ hi ((happens_concat ops op _ _).mpr (Or.inr ⟨rfl, h⟩))
    · exact Or.inl hnew
  · rintro (hnew | ⟨⟨i, hold, hlatest, hkept⟩, hputs, hremoves⟩)
    · refine ⟨ops.length, (happens_concat ops op _ _).mpr (Or.inr ⟨rfl, hnew⟩), ?_, ?_⟩
      · exact fun j hj => not_happens_later ops op j _ hj
      · exact fun j hj => not_happens_later ops op j _ hj
    · refine ⟨i, (happens_concat ops op i _).mpr (Or.inl hold), ?_, ?_⟩
      · exact fun j hj => not_happens_concat (hlatest j hj) hputs
      · exact fun j hj => not_happens_concat (hkept j hj) hremoves

/-- Under a name stands the set that was last put with it, if the name was not
    removed later. -/
theorem find?_run_iff (ops : List Operation) (hops : ∀ op ∈ ops, ¬ op.Loads) (name : String)
    (set : MarkerSet) :
    (empty.run ops).find? name = some set ↔ set.name = name ∧ ∃ i, LastPut ops set i := by
  induction ops using List.reverseRecOn with
  | nil =>
    constructor
    · exact fun h => absurd h (Option.some_ne_none set).symm
    · rintro ⟨_, i, hput, _⟩
      exact absurd hput.lt (Nat.not_lt_zero i)
  | append_singleton ops op ih =>
    rw [List.forall_mem_append, List.forall_mem_singleton] at hops
    rw [run_concat, find?_apply_iff _ op (uniqueNames_run ops) hops.2, ih hops.1,
      exists_lastPut_concat_iff]
    constructor
    · rintro (⟨hput, hname⟩ | ⟨⟨hname, hlast⟩, hputs, hremoves⟩)
      · exact ⟨hname, Or.inl hput⟩
      · rw [hname]
        exact ⟨rfl, Or.inr ⟨hlast, hputs, hremoves⟩⟩
    · rintro ⟨hname, hput | ⟨hlast, hputs, hremoves⟩⟩
      · exact Or.inl ⟨hput, hname⟩
      · rw [hname] at hputs hremoves
        exact Or.inr ⟨⟨hname, hlast⟩, hputs, hremoves⟩

/-! ## The order of the names -/

/-- The name came at a moment and is still there: a set was put with it, it was not
    removed later, and all sets that were put with it before had been removed by
    then. -/
structure Came (ops : List Operation) (name : String) (i : Nat) : Prop where
  put : Happens ops i fun _ op => op.Puts name
  kept : ∀ j, i < j → ¬ Happens ops j fun c op => op.Removes name c
  first : ∀ k, k < i → (Happens ops k fun _ op => op.Puts name) →
    ∃ j, k < j ∧ j < i ∧ Happens ops j fun c op => op.Removes name c

/-- There is no more than one moment at which a name came. -/
theorem Came.unique {ops : List Operation} {name : String} {i j : Nat} (hi : Came ops name i)
    (hj : Came ops name j) : i = j := by
  -- Between two such moments the name was removed, so it did not stay from the first on.
  have hle : ∀ {i j : Nat}, Came ops name i → Came ops name j → ¬ i < j := by
    intro i j hi hj hij
    rcases hj.first i hij hi.put with ⟨k, hik, _, hremoves⟩
    exact hi.kept k hik hremoves
  exact Nat.le_antisymm (Nat.not_lt.mp (hle hj hi)) (Nat.not_lt.mp (hle hi hj))

/-- A name that is not removed has come when it came. -/
theorem Came.concat {ops : List Operation} {op : Operation} {name : String} {i : Nat}
    (h : Came ops name i) (hop : ¬ op.Removes name (empty.run ops)) :
    Came (ops ++ [op]) name i := by
  have hi := h.put.lt
  refine ⟨(happens_concat ops op i _).mpr (Or.inl h.put), fun j hj => ?_, fun k hk hput => ?_⟩
  · exact not_happens_concat (h.kept j hj) hop
  · rcases (happens_concat ops op k _).mp hput with hput | ⟨hlast, _⟩
    · rcases h.first k hk hput with ⟨j, hkj, hji, hremoves⟩
      exact ⟨j, hkj, hji, (happens_concat ops op j _).mpr (Or.inl hremoves)⟩
    · omega

/-- A name that is not there now was removed after each time that it was put. -/
theorem removed_of_not_mem_names (ops : List Operation) (hops : ∀ op ∈ ops, ¬ op.Loads)
    (name : String) (h : name ∉ (empty.run ops).names) (k : Nat)
    (hput : Happens ops k fun _ op => op.Puts name) :
    ∃ j, k < j ∧ Happens ops j fun c op => op.Removes name c := by
  induction ops using List.reverseRecOn with
  | nil => exact absurd hput.lt (Nat.not_lt_zero k)
  | append_singleton ops op ih =>
    rw [List.forall_mem_append, List.forall_mem_singleton] at hops
    rw [run_concat, mem_names_apply_iff _ op (uniqueNames_run ops) hops.2, not_or, not_and,
      not_not] at h
    rcases (happens_concat ops op k _).mp hput with hput | ⟨_, hputs⟩
    · by_cases hmem : name ∈ (empty.run ops).names
      · -- It is the last operation that removes it.
        exact ⟨ops.length, hput.lt, (happens_concat ops op _ _).mpr (Or.inr ⟨rfl, h.2 hmem⟩)⟩
      · rcases ih hops.1 hmem hput with ⟨j, hj, hremoves⟩
        exact ⟨j, hj, (happens_concat ops op j _).mpr (Or.inl hremoves)⟩
    · exact absurd hputs h.1

/-- A name that is put when it is not there comes now. -/
theorem came_concat_of_puts (ops : List Operation) (hops : ∀ op ∈ ops, ¬ op.Loads)
    (op : Operation) (name : String) (h : name ∉ (empty.run ops).names) (hputs : op.Puts name) :
    Came (ops ++ [op]) name ops.length := by
  refine ⟨(happens_concat ops op _ _).mpr (Or.inr ⟨rfl, hputs⟩),
    fun j hj => not_happens_later ops op j _ hj, fun k hk hput => ?_⟩
  rcases (happens_concat ops op k _).mp hput with hput | ⟨hlast, _⟩
  · rcases removed_of_not_mem_names ops hops name h k hput with ⟨j, hj, hremoves⟩
    exact ⟨j, hj, hremoves.lt, (happens_concat ops op j _).mpr (Or.inl hremoves)⟩
  · omega

/-- Every name that is there has come. -/
theorem came_of_mem_names (ops : List Operation) (hops : ∀ op ∈ ops, ¬ op.Loads) (name : String)
    (h : name ∈ (empty.run ops).names) : ∃ i, Came ops name i := by
  induction ops using List.reverseRecOn with
  | nil => exact absurd h List.not_mem_nil
  | append_singleton ops op ih =>
    rw [List.forall_mem_append, List.forall_mem_singleton] at hops
    rw [run_concat, mem_names_apply_iff _ op (uniqueNames_run ops) hops.2] at h
    by_cases hmem : name ∈ (empty.run ops).names
    · have hkept : ¬ op.Removes name (empty.run ops) :=
        h.elim Operation.not_removes_of_puts And.right
      rcases ih hops.1 hmem with ⟨i, hi⟩
      exact ⟨i, hi.concat hkept⟩
    · rcases h with hputs | ⟨hold, _⟩
      · exact ⟨ops.length, came_concat_of_puts ops hops.1 op name hmem hputs⟩
      · exact absurd hold hmem

/-- The names stand in the order in which they came. -/
theorem pairwise_came_run (ops : List Operation) (hops : ∀ op ∈ ops, ¬ op.Loads) :
    (empty.run ops).names.Pairwise fun a b => ∃ i j, Came ops a i ∧ Came ops b j ∧ i < j := by
  induction ops using List.reverseRecOn with
  | nil => exact List.Pairwise.nil
  | append_singleton ops op ih =>
    have hops' := hops
    rw [List.forall_mem_append, List.forall_mem_singleton] at hops
    -- The names that stay came when they came.
    have hstay : ∀ a b, ¬ op.Removes a (empty.run ops) → ¬ op.Removes b (empty.run ops) →
        (∃ i j, Came ops a i ∧ Came ops b j ∧ i < j) →
        ∃ i j, Came (ops ++ [op]) a i ∧ Came (ops ++ [op]) b j ∧ i < j := by
      rintro a b ha hb ⟨i, j, hi, hj, hij⟩
      exact ⟨i, j, hi.concat ha, hj.concat hb, hij⟩
    have hkept : ∀ name ∈ ((empty.run ops).apply op).names,
        ¬ op.Removes name (empty.run ops) := by
      intro name hname
      rw [mem_names_apply_iff _ op (uniqueNames_run ops) hops.2] at hname
      exact hname.elim Operation.not_removes_of_puts And.right
    rw [run_concat]
    rcases names_apply_cases (empty.run ops) op hops.2 with ⟨set, hput, hnew, happly⟩ | hsublist
    · rw [happly] at hkept ⊢
      rw [List.pairwise_append]
      refine ⟨?_, List.pairwise_singleton _ _, fun a ha b hb => ?_⟩
      · exact (ih hops.1).imp_of_mem fun ha hb => hstay _ _ (hkept _ (List.mem_append_left _ ha))
          (hkept _ (List.mem_append_left _ hb))
      · -- The new name comes now, and all others came before.
        have hputs : op.Puts set.name := by
          rw [hput]
          exact rfl
        rcases came_of_mem_names ops hops.1 a ha with ⟨i, hi⟩
        rw [List.mem_singleton.mp hb]
        exact ⟨i, ops.length, hi.concat (hkept a (List.mem_append_left _ ha)),
          came_concat_of_puts ops hops.1 op set.name hnew hputs, hi.put.lt⟩
    · exact ((ih hops.1).sublist hsublist).imp_of_mem fun ha hb =>
        hstay _ _ (hkept _ ha) (hkept _ hb)

/-! ## The active name -/

/-- The active name is up to the last operation that had a say in it. -/
theorem active_run (ops : List Operation) (hops : ∀ op ∈ ops, ¬ op.Loads) :
    (∃ i op, (Happens ops i fun c other => other = op ∧ op.Decides c) ∧
      (∀ j, i < j → ¬ Happens ops j fun c other => other.Decides c) ∧
      (empty.run ops).active = op.choice (empty.run ops).names) ∨
    ((∀ i, ¬ Happens ops i fun c op => op.Decides c) ∧ (empty.run ops).active = "") := by
  induction ops using List.reverseRecOn with
  | nil => exact Or.inr ⟨fun i h => absurd h.lt (Nat.not_lt_zero i), rfl⟩
  | append_singleton ops op ih =>
    rw [List.forall_mem_append, List.forall_mem_singleton] at hops
    rw [run_concat]
    by_cases hdecides : op.Decides (empty.run ops)
    · refine Or.inl ⟨ops.length, op, ?_, fun j hj => not_happens_later ops op j _ hj, ?_⟩
      · exact (happens_concat ops op _ _).mpr (Or.inr ⟨rfl, rfl, hdecides⟩)
      · exact active_apply _ op hdecides
    · -- It changes nothing, so it is still up to the one before.
      rw [apply_of_not_decides _ op hops.2 hdecides]
      rcases ih hops.1 with ⟨i, last, hi, hlater, hactive⟩ | ⟨hnone, hactive⟩
      · exact Or.inl ⟨i, last, (happens_concat ops op i _).mpr (Or.inl hi),
          fun j hj => not_happens_concat (hlater j hj) hdecides, hactive⟩
      · exact Or.inr ⟨fun i => not_happens_concat (hnone i) hdecides, hactive⟩

/-! ## The whole catalog -/

/-- A catalog that was made by operations alone is told by their history. Under
    each name stands the set that was last put with it, unless the name was removed
    later, and there are no other sets. The names stand in the order in which they
    came. The active name is the one that the last operation decided for: that of
    the set it put, the one it made active, or after a removal the last of the names
    that are left; and it is empty when no operation had a say. -/
theorem run_history (ops : List Operation) (hops : ∀ op ∈ ops, ¬ op.Loads) :
    let c := empty.run ops
    (∀ name set, c.find? name = some set ↔ set.name = name ∧ ∃ i, LastPut ops set i) ∧
      (∀ set ∈ c.sets, c.find? set.name = some set) ∧
      (c.names.Pairwise fun a b => ∃ i j, Came ops a i ∧ Came ops b j ∧ i < j) ∧
      ((∃ i op, (Happens ops i fun c other => other = op ∧ op.Decides c) ∧
        (∀ j, i < j → ¬ Happens ops j fun c other => other.Decides c) ∧
        c.active = op.choice c.names) ∨
      ((∀ i, ¬ Happens ops i fun c op => op.Decides c) ∧ c.active = "")) := by
  intro c
  refine ⟨find?_run_iff ops hops, fun set hset => ?_, pairwise_came_run ops hops,
    active_run ops hops⟩
  exact (find?_eq_some_iff c (uniqueNames_run ops) set.name set).mpr ⟨hset, rfl⟩

/-- A name that is put again after it was removed comes last, and with the new set.
    The switch to a name that is not there has no say. -/
theorem run_history_returned :
    let lint : MarkerSet := ⟨"lint", none, []⟩
    let again : MarkerSet := ⟨"lint", some (.ofString "/p"), []⟩
    let ops : List Operation := [.put lint, .put ⟨"build", none, []⟩, .activate "lint",
      .clearActive, .put again, .activate "build", .activate "gone"]
    (∀ op ∈ ops, ¬ op.Loads) ∧ (∃ i, LastPut ops again i) ∧ (¬ ∃ i, LastPut ops lint i) ∧
      (∃ i j, Came ops "build" i ∧ Came ops "lint" j ∧ i < j) ∧
      ∃ i op, (Happens ops i fun c other => other = op ∧ op.Decides c) ∧
        op.choice ["build", "lint"] = "build" := by
  intro lint again ops
  have hops : ∀ op ∈ ops, ¬ op.Loads := by
    rintro op hop ⟨s, doc, read, rfl, _⟩
    simp only [ops, List.mem_cons, reduceCtorEq, List.not_mem_nil, or_false] at hop
  have hnames : (empty.run ops).names = ["build", "lint"] := by decide
  have hactive : (empty.run ops).active = "build" := by decide
  rcases run_history ops hops with ⟨hfind, _, horder, hdecided⟩
  rw [hnames] at horder hdecided
  rw [hactive] at hdecided
  refine ⟨hops, ((hfind "lint" again).mp (by decide)).2, fun h => ?_, ?_, ?_⟩
  · exact absurd ((hfind "lint" lint).mpr ⟨rfl, h⟩) (by decide)
  · exact (List.pairwise_cons.mp horder).1 "lint" List.mem_cons_self
  · rcases hdecided with ⟨i, op, hop, _, hchoice⟩ | ⟨_, hnone⟩
    · exact ⟨i, op, hop, hchoice.symm⟩
    · exact absurd hnone (by decide)

end Catalog

end SourceMarkers
