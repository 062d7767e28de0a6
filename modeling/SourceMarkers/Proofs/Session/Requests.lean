import SourceMarkers.Proofs.Text.Cutting
import SourceMarkers.Session.Stream

/-!
# The requests of an input

Which requests an input holds can be said without reading it line by line. The
input is cut at its line ends, padding is trimmed off the lines, and a line of
nothing is no request. When the input fails, what stands behind its last line
end is not complete and does not count.

Reading a line takes the first request off, if the line holds one. That is all
that a proof about reading has to know.

As padding is trimmed off every line, it may stand wherever a line begins or
ends: at the front of the input, behind a line end or before one, and at the
end of the input. This is where line ends are padding as well, so it covers
blank lines, a return before a line end, and a last line with a line end or
without one.

## Main definitions

* `requestLines`: The requests of an input.

## Theorems

* `readLine_cases`: What reading a line takes off an input.
* `requestLines_of_line`: Reading a line takes the first request off.
* `requestLines_append`: The requests of an input that is cut behind a line end.
* `requestLines_padding`: Padding makes no difference at the ends of a line.
-/

namespace SourceMarkers

/-- The lines of an input that are complete. What follows the last line end is
    complete when the input ends there. -/
def completeLines (input : List UInt8) : InputEnd → List (List UInt8)
  | .ended => input.splitOn newline
  | .failed _ => (input.splitOn newline).dropLast

/-- The requests of an input, without their padding. -/
def requestLines (input : List UInt8) (ending : InputEnd) : List (List UInt8) :=
  ((completeLines input ending).map trimPadding).filter fun line => !line.isEmpty

/-! ## Padding around a line -/

theorem trimPadding_append_left (padding line : List UInt8)
    (h : ∀ b ∈ padding, isPadding b = true) : trimPadding (padding ++ line) = trimPadding line :=
  trimmed_append_left isPadding line padding h

theorem trimPadding_append (line padding : List UInt8) (h : ∀ b ∈ padding, isPadding b = true) :
    trimPadding (line ++ padding) = trimPadding line :=
  trimmed_append isPadding line padding h

theorem isPadding_newline : isPadding newline = true := rfl

/-! ## Reading a line -/

/-- Reading takes off what stands before a line end, and the line end. Without
    a line end it takes off everything, unless the input fails or has nothing
    left. -/
theorem readLine_cases (input : List UInt8) (ending : InputEnd) :
    (∃ front rest, newline ∉ front ∧ input = front ++ newline :: rest ∧
      readLine input ending = .line (front ++ [newline]) rest) ∨
    (newline ∉ input ∧ readLine input ending =
      match ending with
      | .ended => if input.isEmpty then .ended else .line input []
      | .failed reason => .failed reason) := by
  have hcut := List.takeWhile_append_dropWhile (p := (· != newline)) (l := input)
  have hfront : newline ∉ input.takeWhile (· != newline) := by
    intro hmem
    have hne := List.mem_takeWhile_imp hmem
    rw [bne_self_eq_false] at hne
    exact absurd hne (by decide)
  cases hdrop : input.dropWhile (· != newline) with
  | nil =>
    rw [hdrop, List.append_nil] at hcut
    rw [hcut] at hfront
    exact Or.inr ⟨hfront, by cases ending <;> simp only [readLine, hdrop]⟩
  | cons b rest =>
    -- What stops the reading is a line end.
    have hhead := List.head_dropWhile_not (· != newline) (l := input)
      (by rw [hdrop]; exact List.cons_ne_nil _ _)
    simp only [hdrop, List.head_cons, bne_eq_false_iff_eq] at hhead
    rw [hdrop, hhead] at hcut
    refine Or.inl ⟨_, rest, hfront, hcut.symm, ?_⟩
    unfold readLine
    rw [hdrop, hhead]

/-- A line and its line end stand in front of the other complete lines. -/
theorem completeLines_line (front rest : List UInt8) (ending : InputEnd) (h : newline ∉ front) :
    completeLines (front ++ newline :: rest) ending = front :: completeLines rest ending := by
  have hcut := List.splitOn_append_cons_self_of_not_mem h rest
  cases ending with
  | ended => exact hcut
  | failed reason =>
    unfold completeLines
    rw [hcut, List.dropLast_cons_of_ne_nil (List.splitOn_ne_nil newline rest)]

theorem requestLines_nil : requestLines [] .ended = [] := by
  unfold requestLines completeLines
  rw [List.splitOn_nil]
  rfl

/-- What a line was read off has that line in front of its other lines. The line
    end may be missing there, which is padding. -/
theorem requestLines_cons_of_line (input line rest : List UInt8) (ending : InputEnd)
    (h : readLine input ending = .line line rest) :
    ∃ front, trimPadding line = trimPadding front ∧
      requestLines input ending =
        ((front :: completeLines rest ending).map trimPadding).filter fun l => !l.isEmpty := by
  rcases readLine_cases input ending with ⟨front, rest', hfront, hinput, hread⟩ | ⟨hinput, hread⟩
  · rw [hread, LineRead.line.injEq] at h
    rcases h with ⟨rfl, rfl⟩
    refine ⟨front, ?_, ?_⟩
    · refine trimPadding_append front [newline] fun b hb => ?_
      rw [List.mem_singleton.mp hb]
      exact isPadding_newline
    · rw [requestLines, hinput, completeLines_line front _ ending hfront]
  · rw [hread] at h
    cases ending with
    | failed reason => exact absurd h (by simp only [reduceCtorEq, not_false_eq_true])
    | ended =>
      simp only [] at h
      split at h
      · exact absurd h (by simp only [reduceCtorEq, not_false_eq_true])
      · rw [LineRead.line.injEq] at h
        rcases h with ⟨rfl, rfl⟩
        refine ⟨input, rfl, ?_⟩
        -- Behind the only line stands a line of nothing, which is no request.
        have hone : completeLines input .ended = [input] := List.splitOn_eq_singleton hinput
        rw [requestLines, hone]
        show _ = ([input, []].map trimPadding).filter _
        rw [List.map_cons, List.map_cons, List.filter_cons, List.filter_cons]
        rfl

/-- Reading a line takes the first request off, or none when the line is one of
    padding. -/
theorem requestLines_of_line (input line rest : List UInt8) (ending : InputEnd)
    (h : readLine input ending = .line line rest) :
    requestLines input ending =
      if (trimPadding line).isEmpty then requestLines rest ending
      else trimPadding line :: requestLines rest ending := by
  rcases requestLines_cons_of_line input line rest ending h with ⟨front, htrim, hrequests⟩
  rw [hrequests, htrim, List.map_cons, List.filter_cons]
  by_cases hempty : (trimPadding front).isEmpty = true
  · rw [hempty, if_pos rfl, Bool.not_true, if_neg Bool.false_ne_true]
    rfl
  · rw [Bool.not_eq_true] at hempty
    rw [hempty, Bool.not_false, if_pos rfl, if_neg Bool.false_ne_true]
    rfl

/-- An input with nothing left to read holds no request, and neither does one
    that fails before a line is complete. -/
theorem requestLines_of_ended (input : List UInt8) (ending : InputEnd)
    (h : readLine input ending = .ended) : requestLines input ending = [] ∧ ending = .ended := by
  rcases readLine_cases input ending with ⟨front, rest, _, _, hread⟩ | ⟨_, hread⟩
  · rw [hread] at h
    exact absurd h (by simp only [reduceCtorEq, not_false_eq_true])
  · rw [hread] at h
    cases ending with
    | failed reason => exact absurd h (by simp only [reduceCtorEq, not_false_eq_true])
    | ended =>
      simp only [] at h
      split at h
      · next hempty =>
        rw [List.isEmpty_iff.mp hempty]
        exact ⟨requestLines_nil, rfl⟩
      · exact absurd h (by simp only [reduceCtorEq, not_false_eq_true])

theorem requestLines_of_failed (input : List UInt8) (ending : InputEnd) (reason : String)
    (h : readLine input ending = .failed reason) :
    requestLines input ending = [] ∧ ending = .failed reason := by
  rcases readLine_cases input ending with ⟨front, rest, _, _, hread⟩ | ⟨hinput, hread⟩
  · rw [hread] at h
    exact absurd h (by simp only [reduceCtorEq, not_false_eq_true])
  · rw [hread] at h
    cases ending with
    | failed reason' =>
      rw [LineRead.failed.injEq] at h
      refine ⟨?_, by rw [h]⟩
      -- The only line has no line end, so it is not complete.
      unfold requestLines completeLines
      rw [List.splitOn_eq_singleton hinput]
      rfl
    | ended =>
      simp only [] at h
      split at h <;> exact absurd h (by simp only [reduceCtorEq, not_false_eq_true])

/-! ## Inputs in parts -/

/-- An input that is cut behind a line end has the requests of its parts. -/
theorem requestLines_append (a b : List UInt8) (h : a = [] ∨ a.getLast? = some newline) :
    requestLines (a ++ b) .ended = requestLines a .ended ++ requestLines b .ended := by
  rcases h with rfl | hlast
  · rw [List.nil_append, requestLines_nil, List.nil_append]
  · rcases List.getLast?_eq_some_iff.mp hlast with ⟨front, rfl⟩
    -- The line end is where the octets are split, so no line spans both parts.
    have hcut : ∀ back : List UInt8, (front ++ newline :: back).splitOn newline =
        front.splitOn newline ++ back.splitOn newline :=
      fun back => List.splitOn_append_cons_self front back
    -- What follows the last line end of the first part is a line of nothing.
    have hempty : ((([].splitOn newline).map trimPadding).filter fun line => !line.isEmpty) = [] :=
      requestLines_nil
    unfold requestLines completeLines
    rw [List.append_assoc, List.singleton_append, hcut b, hcut [], List.map_append,
      List.filter_append, List.map_append, List.filter_append, hempty, List.append_nil]

/-- An input that is cut before a line end has the requests of its parts. -/
theorem requestLines_append_newline (a b : List UInt8) (h : b = [] ∨ b.head? = some newline) :
    requestLines (a ++ b) .ended = requestLines a .ended ++ requestLines b .ended := by
  rcases h with rfl | hhead
  · rw [List.append_nil, requestLines_nil, List.append_nil]
  · rcases List.head?_eq_some_iff.mp hhead with ⟨back, rfl⟩
    have hcut : ∀ front : List UInt8, requestLines (front ++ newline :: back) .ended =
        requestLines front .ended ++ requestLines back .ended := by
      intro front
      unfold requestLines completeLines
      rw [List.splitOn_append_cons_self, List.map_append, List.filter_append]
    -- The line end belongs to neither part, and nothing stands before it in the second.
    have hback := hcut []
    rw [List.nil_append, requestLines_nil, List.nil_append] at hback
    rw [hcut a, hback]

/-! ## Padding at the ends of a line -/

/-- Padding in front of an input makes no difference. -/
theorem requestLines_padding_left (padding back : List UInt8)
    (h : ∀ b ∈ padding, isPadding b = true) :
    requestLines (padding ++ back) .ended = requestLines back .ended := by
  induction padding with
  | nil => rfl
  | cons b rest ih =>
    rw [List.cons_append, ← ih fun x hx => h x (List.mem_cons_of_mem _ hx)]
    generalize rest ++ back = more
    by_cases hb : b = newline
    · -- A line end in front makes a blank line.
      rw [← List.singleton_append, hb, requestLines_append [newline] more (Or.inr rfl)]
      rfl
    · have hnot : newline ∉ [b] := fun hmem => hb (List.mem_singleton.mp hmem).symm
      have hpad : ∀ x ∈ [b], isPadding x = true := by
        intro x hx
        rw [List.mem_singleton.mp hx]
        exact h b List.mem_cons_self
      unfold requestLines completeLines
      rw [← List.singleton_append, splitOn_append_of_not_mem newline [b] more hnot]
      -- Anything else belongs to the first line, and is trimmed off there.
      cases hsplit : more.splitOn newline with
      | nil => exact absurd hsplit (List.splitOn_ne_nil newline more)
      | cons first others =>
        rw [List.modifyHead_cons, List.map_cons, List.map_cons,
          trimPadding_append_left [b] first hpad]

/-- Padding behind an input makes no difference. -/
theorem requestLines_padding_right (front padding : List UInt8)
    (h : ∀ b ∈ padding, isPadding b = true) :
    requestLines (front ++ padding) .ended = requestLines front .ended := by
  induction padding using List.reverseRecOn with
  | nil => rw [List.append_nil]
  | append_singleton rest b ih =>
    rw [← List.append_assoc, ← ih fun x hx => h x (List.mem_append_left _ hx)]
    generalize front ++ rest = more
    by_cases hb : b = newline
    · rw [hb, requestLines_append_newline more [newline] (Or.inr rfl)]
      show _ ++ [] = _
      rw [List.append_nil]
    · have hnot : newline ∉ [b] := fun hmem => hb (List.mem_singleton.mp hmem).symm
      have hpad : ∀ x ∈ [b], isPadding x = true := fun x hx =>
        h x (List.mem_append_right _ hx)
      rcases splitOn_append_last newline more [b] hnot with ⟨before, last, hmore, happend⟩
      unfold requestLines completeLines
      rw [happend, hmore, List.map_append, List.map_append, List.map_singleton,
        List.map_singleton, trimPadding_append last [b] hpad]

/-- Padding may stand wherever a line begins or ends. -/
theorem requestLines_padding (front padding back : List UInt8)
    (h : ∀ b ∈ padding, isPadding b = true)
    (hedge : (front = [] ∨ front.getLast? = some newline) ∨
      (back = [] ∨ back.head? = some newline)) :
    requestLines (front ++ padding ++ back) .ended = requestLines (front ++ back) .ended := by
  rcases hedge with hfront | hback
  · rw [List.append_assoc, requestLines_append front _ hfront, requestLines_append front _ hfront,
      requestLines_padding_left padding back h]
  · rw [requestLines_append_newline _ back hback, requestLines_append_newline front back hback,
      requestLines_padding_right front padding h]

end SourceMarkers
