import SourceMarkers.Json.Parser
import SourceMarkers.Json.Printer
import SourceMarkers.Proofs.Json.Scalars

/-!
# Blanks between tokens

A text of a value is made of tokens: the words, numbers and strings, and the marks
that hold lists and objects together. Blanks may stand in front of each of them and
behind the last, as many as anyone likes; inside of a token there are none to be
added. The compact text is the one without any.

A reader passes over blanks as it comes to the next token. `Spaced.skip` says what is
left then, which is all that the readers of lists and objects have to know. That the
blanks behind a number are not taken for a part of it is `Spaced.endsNumber`.

## Main definitions

* `Value.tokens`: The tokens of a value.
* `Blanks`: Nothing but blanks.
* `Spaced`: Tokens with blanks in front of them.
* `IsTextOf`: A text of a value, with blanks anywhere between its tokens.

## Theorems

* `flatten_tokens`: The tokens make up the compact text.
* `spaced_append_iff`, `spaced_flatten`: Texts of more tokens, and the one without
  blanks.
* `Spaced.skip`: Passing over the blanks in front of a token.
* `isTextOf_chars`: The compact text is a text.
-/

namespace SourceMarkers

namespace Json

/-! ## Tokens -/

namespace Value

mutual

/-- The tokens of a value. -/
def tokens : Value → List (List Char)
  | .null => [chars .null]
  | .bool b => [chars (.bool b)]
  | .number n => [chars (.number n)]
  | .string s => [chars (.string s)]
  | .array [] => [['['], [']']]
  | .array (v :: rest) => ['['] :: (v.tokens ++ (itemTokens rest ++ [[']']]))
  | .object [] => [['\x7b'], ['\x7d']]
  | .object ((name, v) :: rest) =>
    ['\x7b'] :: quote name :: [':'] :: (v.tokens ++ (memberTokens rest ++ [['\x7d']]))

/-- The tokens of the items after the first. -/
def itemTokens : List Value → List (List Char)
  | [] => []
  | v :: rest => [','] :: (v.tokens ++ itemTokens rest)

/-- The tokens of the members after the first. -/
def memberTokens : List (String × Value) → List (List Char)
  | [] => []
  | (name, v) :: rest => [','] :: quote name :: [':'] :: (v.tokens ++ memberTokens rest)

end

mutual

/-- The compact text of a value is its tokens, one behind the other. -/
theorem flatten_tokens : ∀ v : Value, v.tokens.flatten = v.chars
  | .null | .bool _ | .number _ | .string _ => by
    simp only [tokens, List.flatten_cons, List.flatten_nil, List.append_nil]
  | .array [] | .object [] => rfl
  | .array (v :: rest) => by
    have hv := flatten_tokens v
    have hrest := flatten_itemTokens rest
    simp only [tokens, chars, List.flatten_cons, List.flatten_append, List.flatten_nil, hv, hrest,
      List.cons_append, List.nil_append, List.append_assoc, List.append_nil]
  | .object ((name, v) :: rest) => by
    have hv := flatten_tokens v
    have hrest := flatten_memberTokens rest
    simp only [tokens, chars, List.flatten_cons, List.flatten_append, List.flatten_nil, hv, hrest,
      List.cons_append, List.nil_append, List.append_assoc, List.append_nil]

theorem flatten_itemTokens : ∀ items : List Value, (itemTokens items).flatten = moreItems items
  | [] => rfl
  | v :: rest => by
    have hv := flatten_tokens v
    have hrest := flatten_itemTokens rest
    simp only [itemTokens, moreItems, List.flatten_cons, List.flatten_append, hv, hrest,
      List.cons_append, List.nil_append]

theorem flatten_memberTokens : ∀ members : List (String × Value),
    (memberTokens members).flatten = moreMembers members
  | [] => rfl
  | (name, v) :: rest => by
    have hv := flatten_tokens v
    have hrest := flatten_memberTokens rest
    simp only [memberTokens, moreMembers, List.flatten_cons, List.flatten_append, hv, hrest,
      List.cons_append, List.nil_append, List.append_assoc]

end

end Value

/-! ## Blanks -/

/-- Nothing but blanks: spaces, tabs, line ends and returns. -/
def Blanks (cs : List Char) : Prop := ∀ c ∈ cs, c = ' ' ∨ c = '\t' ∨ c = '\n' ∨ c = '\r'

theorem blanks_nil : Blanks [] := fun _ h => absurd h List.not_mem_nil

theorem Blanks.isBlank {cs : List Char} (h : Blanks cs) (c : Char) (hc : c ∈ cs) :
    isBlank c = true := by
  rcases h c hc with rfl | rfl | rfl | rfl
  · rfl
  · rfl
  · rfl
  · rfl

theorem skipBlank_cons (c : Char) (cs : List Char) (h : isBlank c = false) :
    skipBlank (c :: cs) = c :: cs := by
  rw [skipBlank, List.dropWhile_cons, if_neg (by rw [h]; decide)]

/-- Blanks are passed over. -/
theorem skipBlank_append (blank cs : List Char) (h : Blanks blank) :
    skipBlank (blank ++ cs) = skipBlank cs :=
  List.dropWhile_append_of_pos h.isBlank

theorem skipBlank_blanks (blank : List Char) (h : Blanks blank) : skipBlank blank = [] := by
  have hskip := skipBlank_append blank [] h
  rw [List.append_nil] at hskip
  exact hskip

/-- No number goes on with a blank. -/
theorem endsNumber_blanks (blank tail : List Char) (h : Blanks blank) (htail : EndsNumber tail) :
    EndsNumber (blank ++ tail) := by
  cases blank with
  | nil => exact htail
  | cons c rest =>
    rcases h c List.mem_cons_self with rfl | rfl | rfl | rfl
    · exact ⟨rfl, by decide, by decide, by decide⟩
    · exact ⟨rfl, by decide, by decide, by decide⟩
    · exact ⟨rfl, by decide, by decide, by decide⟩
    · exact ⟨rfl, by decide, by decide, by decide⟩

/-! ## Texts -/

/-- Tokens one behind the other, with blanks in front of each. -/
inductive Spaced : List (List Char) → List Char → Prop where
  | nil : Spaced [] []
  | cons (blank token : List Char) (tokens : List (List Char)) (cs : List Char)
      (hblank : Blanks blank) (h : Spaced tokens cs) :
      Spaced (token :: tokens) (blank ++ (token ++ cs))

/-- A text of a value: its tokens with blanks in front of each and behind the last. -/
def IsTextOf (cs : List Char) (v : Value) : Prop :=
  ∃ body blank, cs = body ++ blank ∧ Spaced v.tokens body ∧ Blanks blank

theorem Spaced.token {tokens : List (List Char)} {cs : List Char} (h : Spaced tokens cs)
    (token : List Char) : Spaced (token :: tokens) (token ++ cs) :=
  .cons [] token tokens cs blanks_nil h

/-- Without any blanks, a text is the tokens put together. -/
theorem spaced_flatten (tokens : List (List Char)) : Spaced tokens tokens.flatten := by
  induction tokens with
  | nil => exact .nil
  | cons token rest ih => exact ih.token token

theorem spaced_append_iff (front back : List (List Char)) (cs : List Char) :
    Spaced (front ++ back) cs ↔ ∃ xs ys, cs = xs ++ ys ∧ Spaced front xs ∧ Spaced back ys := by
  induction front generalizing cs with
  | nil =>
    constructor
    · intro h
      exact ⟨[], cs, rfl, .nil, h⟩
    · rintro ⟨xs, ys, rfl, hfront, hback⟩
      cases hfront
      exact hback
  | cons token rest ih =>
    constructor
    · intro h
      cases h with
      | cons blank _ _ more hblank h =>
        rcases (ih more).mp h with ⟨xs, ys, rfl, hfront, hback⟩
        refine ⟨blank ++ (token ++ xs), ys, ?_, .cons blank token rest xs hblank hfront, hback⟩
        simp only [List.append_assoc]
    · rintro ⟨xs, ys, rfl, hfront, hback⟩
      cases hfront with
      | cons blank _ _ more hblank h =>
        have hboth := Spaced.cons blank token (rest ++ back) (more ++ ys) hblank
          ((ih (more ++ ys)).mpr ⟨more, ys, rfl, h, hback⟩)
        simpa only [List.cons_append, List.append_assoc] using hboth

/-- Passing over the blanks in front of a token that starts with none comes to the
    token, and the other tokens are behind it. -/
theorem Spaced.skip {c : Char} {token : List Char} {tokens : List (List Char)} {cs : List Char}
    (h : Spaced ((c :: token) :: tokens) cs) (hc : isBlank c = false) :
    ∃ more, Spaced tokens more ∧ ∀ tail, skipBlank (cs ++ tail) = c :: token ++ (more ++ tail) := by
  cases h with
  | cons blank _ _ more hblank h =>
    refine ⟨more, h, fun tail => ?_⟩
    rw [List.append_assoc, skipBlank_append blank _ hblank, List.append_assoc, List.cons_append,
      skipBlank_cons c _ hc]

/-- A mark, or a blank in front of it, ends a number. -/
theorem Spaced.endsNumber {c : Char} {tokens : List (List Char)} {cs : List Char}
    (h : Spaced ([c] :: tokens) cs) (hc : c = ',' ∨ c = ']' ∨ c = '\x7d') (tail : List Char) :
    EndsNumber (cs ++ tail) := by
  cases h with
  | cons blank _ _ more hblank h =>
    rw [List.append_assoc]
    exact endsNumber_blanks blank _ hblank (endsNumber_mark c _ hc)

/-- Blanks make a text longer. -/
theorem Spaced.length_le {tokens : List (List Char)} {cs : List Char} (h : Spaced tokens cs) :
    tokens.flatten.length ≤ cs.length := by
  induction h with
  | nil => exact Nat.le_refl 0
  | cons blank token tokens cs _ _ ih =>
    simp only [List.flatten_cons, List.length_append]
    omega

/-- The compact text of a value is a text of it. -/
theorem isTextOf_chars (v : Value) : IsTextOf v.chars v := by
  refine ⟨v.chars, [], (List.append_nil _).symm, ?_, blanks_nil⟩
  rw [← v.flatten_tokens]
  exact spaced_flatten v.tokens

end Json

end SourceMarkers
