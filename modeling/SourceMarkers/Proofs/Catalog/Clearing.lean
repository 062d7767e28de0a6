import Mathlib.Data.List.DropRight
import SourceMarkers.Proofs.Catalog.Operations

/-!
# Removing the active set again and again

The first removal takes a set from anywhere in the list, or none if the active
name names no set, and makes the last of the others active. From then on the
active set is the last one, so every further removal takes one set off the end,
until no set and no active name is left.

A removal looks for the first set with the active name. As names are unique, this
is the only one, and removing it is the same as leaving out the name; and the last
set is found at the end, not earlier.

## Main definitions

* `Catalog.lastActive`: Sets of which the last one is active.

## Theorems

* `Catalog.eraseP_name_eq_filter`: Removing the set with a name.
* `Catalog.clearActive_eq`: What a removal leaves.
* `Catalog.clearActive_lastActive`: A removal from the end.
* `Catalog.run_clearActive_succ`, `Catalog.run_clearActive_drains`: What many
  removals leave.
-/

namespace SourceMarkers

namespace Catalog

/-- With unique names, the first set with a name is the only one. -/
theorem eraseP_name_eq_filter (name : String) (sets : List MarkerSet)
    (h : (sets.map MarkerSet.name).Nodup) :
    (sets.eraseP fun set => set.name == name) = sets.filter fun set => set.name != name := by
  induction sets with
  | nil => rfl
  | cons set rest ih =>
    rw [List.map_cons, List.nodup_cons] at h
    by_cases hname : set.name = name
    · -- Nothing behind this set has its name, so nothing else is left out.
      have hrest : ∀ other ∈ rest, (other.name != name) = true := by
        intro other hother
        rw [bne_iff_ne]
        intro heq
        rw [hname, ← heq] at h
        exact h.1 (List.mem_map_of_mem hother)
      have hfirst : (set.name == name) = true := beq_iff_eq.mpr hname
      rw [List.eraseP_cons, hfirst, cond_true, List.filter_cons, bne, hfirst,
        List.filter_eq_self.mpr hrest]
      rfl
    · have hfirst : (set.name == name) = false := beq_eq_false_iff_ne.mpr hname
      rw [List.eraseP_cons, hfirst, cond_false, List.filter_cons, bne, hfirst, ih h.2]
      rfl

/-- The sets with the last of them active, or no active name when there are
    none. -/
def lastActive (sets : List MarkerSet) : Catalog :=
  ⟨(sets.getLast?.map MarkerSet.name).getD "", sets⟩

/-- A removal leaves the sets with other names than the active one. -/
theorem clearActive_eq (c : Catalog) (h : c.UniqueNames) :
    c.clearActive = lastActive (c.sets.filter fun set => set.name != c.active) := by
  rw [← eraseP_name_eq_filter c.active c.sets h]
  rfl

/-- When the last set is active, it is the one that is removed. -/
theorem clearActive_lastActive (sets : List MarkerSet) (last : MarkerSet)
    (h : ((sets ++ [last]).map MarkerSet.name).Nodup) :
    (lastActive (sets ++ [last])).clearActive = lastActive sets := by
  have hactive : (lastActive (sets ++ [last])).active = last.name := by
    rw [lastActive, List.getLast?_concat]
    rfl
  have hothers : ∀ set ∈ sets, ¬ (set.name == last.name) = true := by
    intro set hset heq
    rw [List.map_append, List.nodup_append] at h
    exact h.2.2 set.name (List.mem_map_of_mem hset) last.name List.mem_cons_self (beq_iff_eq.mp heq)
  have hrest : ((sets ++ [last]).eraseP fun set => set.name == last.name) = sets := by
    rw [List.eraseP_append_right _ hothers, List.eraseP_cons, beq_self_eq_true, cond_true,
      List.append_nil]
  unfold clearActive
  rw [hactive]
  show lastActive ((sets ++ [last]).eraseP _) = _
  rw [hrest]

/-- From then on every removal takes one set off the end. -/
theorem run_lastActive (k : Nat) (sets : List MarkerSet) (h : (sets.map MarkerSet.name).Nodup) :
    (lastActive sets).run (List.replicate k .clearActive) = lastActive (sets.rdrop k) := by
  induction k generalizing sets with
  | zero =>
    rw [List.rdrop_zero]
    rfl
  | succ k ih =>
    have hrun : (lastActive sets).run (List.replicate (k + 1) .clearActive) =
        (lastActive sets).clearActive.run (List.replicate k .clearActive) := rfl
    rw [hrun]
    rcases List.eq_nil_or_concat' sets with rfl | ⟨init, last, rfl⟩
    · -- Without sets there is nothing to remove.
      rw [List.rdrop_nil]
      have hnil := ih [] List.nodup_nil
      rw [List.rdrop_nil] at hnil
      exact hnil
    · rw [clearActive_lastActive init last h, List.rdrop_concat_succ]
      rw [List.map_append] at h
      exact ih init h.of_append_left

/-- The first removal takes the active set out, and the others take one set each off
    the end. -/
theorem run_clearActive_succ (c : Catalog) (h : c.UniqueNames) (k : Nat) :
    c.run (List.replicate (k + 1) .clearActive) =
      lastActive ((c.sets.filter fun set => set.name != c.active).rdrop k) := by
  have hfirst : c.run (List.replicate (k + 1) .clearActive) =
      c.clearActive.run (List.replicate k .clearActive) := rfl
  have hrest : ((c.sets.filter fun set => set.name != c.active).map MarkerSet.name).Nodup :=
    h.sublist (List.filter_sublist.map MarkerSet.name)
  rw [hfirst, clearActive_eq c h, run_lastActive k _ hrest]

/-- After `k` removals, at least one, the sets are those with other names than
    the one that was active at first, less the last `k - 1` of them, and the last
    one that is left is active. One more removal than there are sets leaves
    nothing. Where there is no set, nothing changes but the active name, which is
    taken away. -/
theorem run_clearActive_drains (c : Catalog) (hnames : c.UniqueNames) :
    (∀ k, 1 ≤ k →
      let rest := (c.sets.filter fun set => set.name != c.active).rdrop (k - 1)
      c.run (List.replicate k .clearActive) =
        ⟨(rest.getLast?.map MarkerSet.name).getD "", rest⟩) ∧
      (∀ k, c.sets.length + 1 ≤ k → c.run (List.replicate k .clearActive) = empty) ∧
      (c.sets = [] → ∀ k, 1 ≤ k →
        c.run (List.replicate k .clearActive) = { c with active := "" }) := by
  refine ⟨fun k hk => ?_, fun k hk => ?_, fun hnone k hk => ?_⟩
  · rcases Nat.exists_eq_add_of_le' hk with ⟨more, rfl⟩
    exact run_clearActive_succ c hnames more
  · -- At least as many sets are dropped as there are.
    rcases Nat.exists_eq_add_of_le' hk with ⟨more, rfl⟩
    have hlength := List.length_filter_le (fun set => set.name != c.active) c.sets
    have hall : (c.sets.filter fun set => set.name != c.active).rdrop (more + c.sets.length) =
        [] := by
      rw [List.rdrop, List.take_eq_nil_iff]
      exact Or.inl (by omega)
    rw [← Nat.add_assoc, run_clearActive_succ c hnames, hall]
    rfl
  · rcases Nat.exists_eq_add_of_le' hk with ⟨more, rfl⟩
    rw [run_clearActive_succ c hnames, hnone, List.filter_nil, List.rdrop_nil]
    rfl

/-- An active name that names no set costs the first removal, and a set with an
    empty name is removed like any other. -/
theorem run_clearActive_drains_dangling :
    let set (name : String) : MarkerSet := ⟨name, none, []⟩
    let c : Catalog := ⟨"gone", [set "build", set "lint", set ""]⟩
    c.UniqueNames ∧
      c.run [.clearActive] = ⟨"", [set "build", set "lint", set ""]⟩ ∧
      c.run [.clearActive, .clearActive] = ⟨"lint", [set "build", set "lint"]⟩ ∧
      c.run (List.replicate 4 .clearActive) = empty ∧
      run ⟨"gone", []⟩ [.clearActive] = empty := by
  intro set c
  have hnames : c.UniqueNames := by unfold UniqueNames; decide
  rcases run_clearActive_drains c hnames with ⟨hrun, hdrained, _⟩
  rcases run_clearActive_drains ⟨"gone", []⟩ List.nodup_nil with ⟨_, _, hnone⟩
  exact ⟨hnames, hrun 1 (by decide), hrun 2 (by decide), hdrained 4 (by decide),
    hnone rfl 1 (by decide)⟩

end Catalog

end SourceMarkers
