import SourceMarkers.Json.Parser
import SourceMarkers.Json.Printer

/-!
# Reading back strings and whole numbers

The text of a string or of a whole number reads back as what it was written
from, and the reader stops right behind it.

A string ends at its closing quote, so nothing has to be known about what
follows. The argument is about one character: what `escapeChar` writes for it
is taken in one step, whatever was read before, and then the string is an
induction.

A number has no end of its own. It ends where the next character cannot go on
with it, and `EndsNumber` says so of the text that follows. Digits are read
greedily, so without this the digits of the next thing would be taken in.

## Main definitions

* `EndsNumber`: A text that no number goes on with.

## Theorems

* `stringBody_escapeChar`: A written character is read in one step.
* `stringBody_quote`: A written string is read up to its closing quote.
* `digits_toDigits`: The digits of a number are read up to its end.
* `number_toDigits`: So is the number.
-/

namespace SourceMarkers

namespace Json

/-! ## Strings -/

/-- Every digit to base 16 has its value. -/
theorem hexValue?_hexDigit (n : Nat) (h : n < 16) : hexValue? (hexDigit n) = some n := by
  have hall : ∀ n < 16, hexValue? (hexDigit n) = some n := by decide
  exact hall n h

/-- The number of a control character reads back as the character. -/
theorem numberedEscape_control (c : Char) (rest : List Char) (h : c.toNat < 0x20) :
    numberedEscape ('0' :: '0' :: hexDigit (c.toNat / 16) :: hexDigit (c.toNat % 16) :: rest) =
      .ok (c, 4) := by
  -- The two digits after the zeros are the number to base 16.
  have hhigh := hexValue?_hexDigit (c.toNat / 16) (by omega)
  have hlow := hexValue?_hexDigit (c.toNat % 16) (by omega)
  have hzero : hexValue? '0' = some 0 := rfl
  have hvalue : ((0 * 16 + 0) * 16 + c.toNat / 16) * 16 + c.toNat % 16 = c.toNat := by omega
  have hfour : fourHex
      ('0' :: '0' :: hexDigit (c.toNat / 16) :: hexDigit (c.toNat % 16) :: rest) =
      .ok c.toNat := by
    simp only [fourHex, List.take_succ_cons, List.take_zero, List.mapM_cons, List.mapM_nil,
      hzero, hhigh, hlow, bind, Option.bind, pure, hvalue]
  -- A control character is far below the halves of a pair.
  have hlowHalf : isLowHalf c.toNat = false := by
    simp only [isLowHalf, Bool.and_eq_false_iff, decide_eq_false_iff_not]
    omega
  have hhighHalf : isHighHalf c.toNat = false := by
    simp only [isHighHalf, Bool.and_eq_false_iff, decide_eq_false_iff_not]
    omega
  simp only [numberedEscape, hfour, bind, Except.bind, hlowHalf, hhighHalf, Bool.false_eq_true,
    if_false, Char.ofNat_toNat]

/-- A character that is not escaped stands for itself. -/
theorem stringBody_plain (c : Char) (done tail : List Char) (hquote : c ≠ '"') (hback : c ≠ '\\')
    (hcontrol : ¬ c.toNat < 0x20) :
    stringBody 0 done (c :: tail) = stringBody 0 (c :: done) tail := by
  rw [stringBody, if_neg hquote, if_neg hback, if_neg hcontrol]

/-- An escape is passed over as a whole. -/
theorem stringBody_escape (d : Char) (taken done tail : List Char)
    (h : escape (taken ++ tail) = .ok (d, taken.length)) :
    stringBody 0 done ('\\' :: (taken ++ tail)) = stringBody 0 (d :: done) tail := by
  -- The count says how many characters are still to be passed over.
  have hskip : ∀ skipped : List Char,
      stringBody skipped.length (d :: done) (skipped ++ tail) = stringBody 0 (d :: done) tail := by
    intro skipped
    induction skipped with
    | nil => rfl
    | cons _ _ ih => exact ih
  rw [stringBody, if_neg (by decide), if_pos rfl, h]
  exact hskip taken

/-- A written character is read in one step. -/
theorem stringBody_escapeChar (c : Char) (done tail : List Char) :
    stringBody 0 done (escapeChar c ++ tail) = stringBody 0 (c :: done) tail := by
  -- The characters with an escape of their own come first, then the other
  -- controls, then all that are written as they are.
  unfold escapeChar
  by_cases hquote : c = '"'
  · rw [if_pos hquote, hquote]; exact stringBody_escape '"' ['"'] done tail rfl
  by_cases hback : c = '\\'
  · rw [if_neg hquote, if_pos hback, hback]; exact stringBody_escape '\\' ['\\'] done tail rfl
  rw [if_neg hquote, if_neg hback]
  by_cases hline : c = '\n'
  · rw [if_pos hline, hline]; exact stringBody_escape '\n' ['n'] done tail rfl
  by_cases hreturn : c = '\r'
  · rw [if_neg hline, if_pos hreturn, hreturn]; exact stringBody_escape '\r' ['r'] done tail rfl
  rw [if_neg hline, if_neg hreturn]
  by_cases htab : c = '\t'
  · rw [if_pos htab, htab]; exact stringBody_escape '\t' ['t'] done tail rfl
  by_cases hbackspace : c = '\x08'
  · rw [if_neg htab, if_pos hbackspace, hbackspace]
    exact stringBody_escape '\x08' ['b'] done tail rfl
  by_cases hfeed : c = '\x0c'
  · rw [if_neg htab, if_neg hbackspace, if_pos hfeed, hfeed]
    exact stringBody_escape '\x0c' ['f'] done tail rfl
  rw [if_neg htab, if_neg hbackspace, if_neg hfeed]
  by_cases hcontrol : c.toNat < 0x20
  · -- The number of the character is written with four digits.
    rw [if_pos hcontrol]
    refine stringBody_escape c
      ['u', '0', '0', hexDigit (c.toNat / 16), hexDigit (c.toNat % 16)] done tail ?_
    have hnumbered := numberedEscape_control c tail hcontrol
    simp only [List.cons_append, List.nil_append, escape, Char.reduceEq, if_false, if_true,
      hnumbered, bind, Except.bind, List.length_cons, List.length_nil]
  · rw [if_neg hcontrol]
    exact stringBody_plain c done tail hquote hback hcontrol

theorem stringBody_flatMap (cs done tail : List Char) :
    stringBody 0 done (cs.flatMap escapeChar ++ '"' :: tail) =
      .ok (String.ofList (done.reverse ++ cs), tail) := by
  induction cs generalizing done with
  | nil => rw [List.flatMap_nil, List.nil_append, stringBody, if_pos rfl, List.append_nil]
  | cons c cs ih =>
    rw [List.flatMap_cons, List.append_assoc, stringBody_escapeChar, ih, List.reverse_cons,
      List.append_assoc, List.singleton_append]

/-- A written string is read up to its closing quote. -/
theorem stringBody_quote (s : String) (tail : List Char) :
    ∃ body, quote s ++ tail = '"' :: body ∧ stringBody 0 [] body = .ok (s, tail) := by
  refine ⟨s.toList.flatMap escapeChar ++ '"' :: tail, ?_, ?_⟩
  · simp only [quote, List.cons_append, List.append_assoc, List.nil_append]
  · rw [stringBody_flatMap, List.reverse_nil, List.nil_append, String.ofList_toList]

/-! ## Whole numbers -/

/-- A text that no number goes on with. -/
def EndsNumber : List Char → Prop
  | [] => True
  | c :: _ => c.isDigit = false ∧ c ≠ '.' ∧ c ≠ 'e' ∧ c ≠ 'E'

/-- The marks that stand behind a value end a number. -/
theorem endsNumber_mark (c : Char) (tail : List Char) (h : c = ',' ∨ c = ']' ∨ c = '\x7d') :
    EndsNumber (c :: tail) := by
  rcases h with rfl | rfl | rfl
  · exact ⟨rfl, by decide, by decide, by decide⟩
  · exact ⟨rfl, by decide, by decide, by decide⟩
  · exact ⟨rfl, by decide, by decide, by decide⟩

theorem isDigit_of_mem_toDigits (n : Nat) (c : Char) (h : c ∈ Nat.toDigits 10 n) :
    c.isDigit = true :=
  Nat.isDigit_of_mem_toDigits (by decide) (by decide) h

/-- The digits of a number are read up to its end. -/
theorem digits_toDigits (n : Nat) (tail : List Char) (h : EndsNumber tail) :
    digits (Nat.toDigits 10 n ++ tail) = ((Nat.toDigits 10 n).map digitValue, tail) := by
  have hall : ∀ c ∈ Nat.toDigits 10 n, c.isDigit = true := isDigit_of_mem_toDigits n
  -- What follows does not start with a digit.
  have htake : tail.takeWhile Char.isDigit = [] ∧ tail.dropWhile Char.isDigit = tail := by
    cases tail with
    | nil => exact ⟨rfl, rfl⟩
    | cons c cs =>
      simp only [List.takeWhile_cons, List.dropWhile_cons, h.1, Bool.false_eq_true, if_false,
        and_self]
  rw [digits, List.takeWhile_append_of_pos hall, List.dropWhile_append_of_pos hall, htake.1,
    htake.2, List.append_nil]

/-- The digits of a number have its value. -/
theorem ofDigits_toDigits (n : Nat) : ofDigits ((Nat.toDigits 10 n).map digitValue) = n := by
  have h := Nat.ofDigitChars_ten_toDigits (n := n)
  rw [Nat.ofDigitChars_eq_foldl] at h
  rw [ofDigits, List.foldl_map]
  simpa only [digitValue, Nat.mul_comm] using h

/-- Only zero starts with a zero. -/
theorem eq_zero_of_head?_toDigits (n : Nat) (h : (Nat.toDigits 10 n).head? = some '0') :
    n = 0 := by
  -- The first digit of a number is the first digit of its tenth part.
  induction n using Nat.strongRecOn with
  | ind n ih =>
    by_cases hsmall : n < 10
    · rw [Nat.toDigits_of_lt_base hsmall, List.head?_cons, Option.some.injEq] at h
      exact Nat.digitChar_eq_zero.mp h
    · rw [Nat.toDigits_of_base_le (by decide) (by omega), List.head?_append] at h
      cases hhead : (Nat.toDigits 10 (n / 10)).head? with
      | none => exact absurd (List.head?_eq_none_iff.mp hhead) Nat.toDigits_ne_nil
      | some c =>
        rw [hhead, Option.some_or, Option.some.injEq] at h
        have := ih (n / 10) (by omega) (by rw [hhead, h])
        omega

/-- The part before a point is the whole of a written number. -/
theorem wholePart_toDigits (n : Nat) (tail : List Char) (h : EndsNumber tail) :
    wholePart (Nat.toDigits 10 n ++ tail) =
      .ok ((Nat.toDigits 10 n).map digitValue, tail) := by
  by_cases hzero : n = 0
  · -- A zero stands alone, as no digit follows.
    rw [hzero, Nat.toDigits_zero, List.singleton_append]
    cases tail with
    | nil => rfl
    | cons c cs =>
      unfold wholePart
      simp only [if_true, h.1, Bool.false_eq_true, if_false]
      rfl
  · -- Any other number does not start with a zero.
    have hdigits := digits_toDigits n tail h
    cases htext : Nat.toDigits 10 n with
    | nil => exact absurd htext Nat.toDigits_ne_nil
    | cons c cs =>
      have hne : c ≠ '0' := by
        intro hc
        exact hzero (eq_zero_of_head?_toDigits n (by rw [htext, hc, List.head?_cons]))
      have hdigit : c.isDigit = true := isDigit_of_mem_toDigits n c (by
        rw [htext]
        exact List.mem_cons_self)
      rw [htext] at hdigits
      rw [List.cons_append] at hdigits ⊢
      unfold wholePart
      simp only [if_neg hne, if_pos hdigit, hdigits]

theorem fractionPart_end (tail : List Char) (h : EndsNumber tail) :
    fractionPart tail = .ok (none, tail) := by
  unfold fractionPart
  split
  · exact absurd rfl h.2.1
  · rfl

theorem exponentPart_end (tail : List Char) (h : EndsNumber tail) :
    exponentPart tail = .ok (none, tail) := by
  cases tail with
  | nil => rfl
  | cons c cs =>
    rw [exponentPart, if_neg]
    rintro (he | he)
    · exact h.2.2.1 he
    · exact h.2.2.2 he

/-- A written number that is kept whole is read up to its end. -/
theorem number_toDigits (negative : Bool) (n : Nat) (k : Int) (tail : List Char)
    (hkeep : keepWhole? negative n = some k) (h : EndsNumber tail) :
    number negative (Nat.toDigits 10 n ++ tail) = .ok (.whole k, tail) := by
  simp only [number, wholePart_toDigits n tail h, fractionPart_end tail h,
    exponentPart_end tail h, ofDigits_toDigits, hkeep, bind, Except.bind, Option.isNone_none,
    Bool.and_self, if_true]

end Json

end SourceMarkers
