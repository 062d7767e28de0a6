import Mathlib.Data.List.DropRight

/-!
# Cutting and trimming

Paths are cut at slashes and inputs at line ends, and in both what means nothing
is trimmed off at the ends. What can be said of this without knowing what the
items are stands here.

An item that is put in front of a list or behind it, and that is not where the
list is cut, belongs to the first piece or to the last one. What is trimmed off
can be put there or taken away without a difference.

## Theorems

* `splitOn_append_of_not_mem`: Items in front belong to the first piece.
* `splitOn_append_last`: Items behind belong to the last piece.
* `splitOn_flatMap_append`: Pieces with a mark behind each are cut apart again.
* `rdropWhile_append_of_pos`, `trimmed_append`, `trimmed_append_left`: What is
  trimmed off makes no difference at the ends.
-/

namespace SourceMarkers

variable {α : Type}

/-! ## Cutting -/

section Cutting

variable [BEq α] [LawfulBEq α] (mark : α) (front back : List α)

/-- Items in front of a list where it is not cut belong to its first piece. -/
theorem splitOn_append_of_not_mem (h : mark ∉ front) :
    (front ++ back).splitOn mark = (back.splitOn mark).modifyHead (front ++ ·) := by
  induction front with
  | nil =>
    rw [List.nil_append]
    cases back.splitOn mark <;> rfl
  | cons b rest ih =>
    have hb : b ≠ mark := fun heq => h (heq ▸ List.mem_cons_self)
    rw [List.cons_append, List.splitOn_cons_eq_if_modifyHead, if_neg (by rwa [beq_iff_eq]),
      ih fun hmem => h (List.mem_cons_of_mem _ hmem)]
    cases back.splitOn mark <;> rfl

/-- Items behind a list where it is not cut belong to its last piece. -/
theorem splitOn_append_last (h : mark ∉ back) :
    ∃ before last, front.splitOn mark = before ++ [last] ∧
      (front ++ back).splitOn mark = before ++ [last ++ back] := by
  induction front with
  | nil => exact ⟨[], [], List.splitOn_nil mark, List.splitOn_eq_singleton h⟩
  | cons b rest ih =>
    rcases ih with ⟨before, last, hrest, happend⟩
    rw [List.cons_append, List.splitOn_cons_eq_if_modifyHead, List.splitOn_cons_eq_if_modifyHead,
      hrest, happend]
    by_cases hb : (b == mark) = true
    · rw [if_pos hb, if_pos hb]
      exact ⟨[] :: before, last, rfl, rfl⟩
    · rw [if_neg hb, if_neg hb]
      -- The item belongs to the first piece, which may be the last one as well.
      cases before with
      | nil => exact ⟨[], b :: last, rfl, rfl⟩
      | cons first others => exact ⟨(b :: first) :: others, last, rfl, rfl⟩

/-- Pieces that each end with a mark are cut apart, with nothing behind the last
    mark. -/
theorem splitOn_flatMap_append (pieces : List (List α)) (h : ∀ piece ∈ pieces, mark ∉ piece) :
    (pieces.flatMap fun piece => piece ++ [mark]).splitOn mark = pieces ++ [[]] := by
  induction pieces with
  | nil => exact List.splitOn_nil mark
  | cons piece rest ih =>
    rw [List.forall_mem_cons] at h
    have hrest := ih h.2
    rw [List.flatMap_cons, List.append_assoc, splitOn_append_of_not_mem mark piece _ h.1,
      List.singleton_append, List.splitOn_cons_eq_if_modifyHead, if_pos (beq_self_eq_true mark),
      hrest, List.modifyHead_cons, List.append_nil, List.cons_append]

end Cutting

/-! ## Trimming -/

section Trimming

variable (p : α → Bool) (items extra : List α)

/-- At the end alone, what is trimmed off may stand behind. -/
theorem rdropWhile_append_of_pos (h : ∀ x ∈ extra, p x = true) :
    (items ++ extra).rdropWhile p = items.rdropWhile p := by
  rw [List.rdropWhile, List.reverse_append,
    List.dropWhile_append_of_pos fun x hx => h x (List.mem_reverse.mp hx), List.rdropWhile]

/-- What is trimmed off may stand in front. -/
theorem trimmed_append_left (h : ∀ x ∈ extra, p x = true) :
    ((extra ++ items).dropWhile p).rdropWhile p = (items.dropWhile p).rdropWhile p := by
  rw [List.dropWhile_append_of_pos h]

/-- What is trimmed off may stand behind. -/
theorem trimmed_append (h : ∀ x ∈ extra, p x = true) :
    ((items ++ extra).dropWhile p).rdropWhile p = (items.dropWhile p).rdropWhile p := by
  rw [List.dropWhile_append]
  split
  · next hempty =>
    -- Nothing is left of the items, and nothing of what stands behind them.
    rw [List.isEmpty_iff.mp hempty, List.dropWhile_eq_nil_iff.mpr h]
  · exact rdropWhile_append_of_pos p _ extra h

end Trimming

end SourceMarkers
