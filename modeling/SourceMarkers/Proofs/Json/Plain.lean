import SourceMarkers.Proofs.Json.Scalars
import SourceMarkers.Text.Utf8.RoundTrip

/-!
# One value is one line

The text of a value holds no control character, whatever the value is. In a
string they are escaped, and nothing else that is written has any. So a value
takes up one line, and a line end that is put behind it is the only one.

The argument goes along the writing: what is written for each part is plain, and
plain texts make a plain text. A character outside of ASCII has octets that are
no controls either, so the octets of a plain text are all from the space
upwards.

## Main definitions

* `Plain`: A text without control characters.

## Theorems

* `plain_escapeChar`, `plain_quote`: Strings.
* `plain_wholeChars`, `plain_render`: Numbers.
* `plain_chars`: Values.
* `Plain.octets`: The octets of a plain text.
-/

namespace SourceMarkers

namespace Json

/-- The text holds no control character below the space. -/
def Plain (cs : List Char) : Prop := ∀ c ∈ cs, 0x20 ≤ c.toNat

instance (cs : List Char) : Decidable (Plain cs) :=
  decidable_of_iff (cs.all (0x20 ≤ Char.toNat ·) = true)
    (by simp only [List.all_eq_true, decide_eq_true_eq, Plain])

@[simp] theorem plain_nil : Plain [] := List.forall_mem_nil _

@[simp] theorem plain_cons_iff (c : Char) (cs : List Char) :
    Plain (c :: cs) ↔ 0x20 ≤ c.toNat ∧ Plain cs := List.forall_mem_cons

@[simp] theorem plain_append_iff (front back : List Char) :
    Plain (front ++ back) ↔ Plain front ∧ Plain back := List.forall_mem_append

theorem Plain.mono {cs more : List Char} (h : Plain more) (hsub : cs ⊆ more) : Plain cs :=
  fun c hc => h c (hsub hc)

/-! ## Strings -/

theorem plain_hexDigit (n : Nat) (h : n < 16) : 0x20 ≤ (hexDigit n).toNat := by
  have hall : ∀ n < 16, 0x20 ≤ (hexDigit n).toNat := by decide
  exact hall n h

/-- What is written for a character is plain, as the controls are escaped. -/
theorem plain_escapeChar (c : Char) : Plain (escapeChar c) := by
  unfold escapeChar
  split
  · decide
  split
  · decide
  split
  · decide
  split
  · decide
  split
  · decide
  split
  · decide
  split
  · decide
  split
  · next hcontrol =>
    -- The two digits after the zeros are digits whatever the number is.
    have hhigh := plain_hexDigit (c.toNat / 16) (by omega)
    have hlow := plain_hexDigit (c.toNat % 16) (by omega)
    simp only [plain_cons_iff, hhigh, hlow, plain_nil, and_true]
    decide
  · next hplain =>
    rw [plain_cons_iff]
    exact ⟨Nat.le_of_not_lt hplain, plain_nil⟩

theorem plain_quote (s : String) : Plain (quote s) := by
  have hbody : Plain (s.toList.flatMap escapeChar) := by
    intro c hc
    rcases List.mem_flatMap.mp hc with ⟨d, _, hd⟩
    exact plain_escapeChar d c hd
  simp only [quote, plain_cons_iff, plain_append_iff, hbody, plain_nil]
  decide

/-! ## Numbers -/

theorem plain_toDigits (n : Nat) : Plain (Nat.toDigits 10 n) := by
  intro c hc
  have hdigit := isDigit_of_mem_toDigits n c hc
  rw [Char.isDigit_iff_toNat] at hdigit
  exact Nat.le_trans (by decide) hdigit.1

theorem plain_wholeChars (n : Int) : Plain (wholeChars n) := by
  have hdigits := plain_toDigits n.natAbs
  unfold wholeChars
  split
  · exact (plain_cons_iff _ _).mpr ⟨by decide, hdigits⟩
  · exact hdigits

theorem plain_replicate_zero (n : Nat) : Plain (List.replicate n '0') := by
  intro c hc
  rw [List.eq_of_mem_replicate hc]
  decide

theorem plain_renderExponent (e : Int) : Plain (Binary64.renderExponent e) := by
  have hdigits := plain_toDigits e.natAbs
  unfold Binary64.renderExponent
  split <;> exact (plain_cons_iff _ _).mpr ⟨by decide, (plain_cons_iff _ _).mpr ⟨by decide, hdigits⟩⟩

/-- However a decimal is laid out, there are digits, and a point, a sign or the
    mark of an exponent between them. -/
theorem plain_layOut (digits : List Char) (place : Int) (h : Plain digits) :
    Plain (Binary64.layOut digits place) := by
  have htake : ∀ n, Plain (digits.take n) := fun n => h.mono (List.take_subset n digits)
  have hdrop : ∀ n, Plain (digits.drop n) := fun n => h.mono (List.drop_subset n digits)
  have hpoint : 0x20 ≤ '.'.toNat := by decide
  have hzero : 0x20 ≤ '0'.toNat := by decide
  unfold Binary64.layOut
  simp only []
  split
  · -- The point stands behind the digits, between them or in front.
    split
    · simp only [plain_append_iff, plain_cons_iff, h, plain_replicate_zero, hpoint, hzero,
        plain_nil, and_self]
    split
    · simp only [plain_append_iff, plain_cons_iff, htake, hdrop, hpoint, and_self]
    · simp only [plain_append_iff, plain_cons_iff, h, plain_replicate_zero, hpoint, hzero,
        plain_nil, and_self]
  · split
    · exact plain_nil
    · next d =>
      exact (plain_cons_iff _ _).mpr ⟨((plain_cons_iff _ _).mp h).1, plain_renderExponent _⟩
    · next d ds _ =>
      rw [plain_cons_iff] at h
      simp only [List.cons_append, plain_cons_iff, plain_append_iff, h, hpoint,
        plain_renderExponent, and_self]

theorem plain_render (x : Binary64) : Plain x.render := by
  have hmagnitude : Plain (if x.units = 0 then ['0', '.', '0']
      else
        Binary64.layOut (Nat.toDigits 10 (Binary64.shortest x.units).1)
          (Binary64.shortest x.units).2) := by
    split
    · decide
    · exact plain_layOut _ _ (plain_toDigits _)
  unfold Binary64.render
  simp only []
  split
  · exact (plain_cons_iff _ _).mpr ⟨by decide, hmagnitude⟩
  · exact hmagnitude

/-! ## Values -/

mutual

/-- The text of a value is plain. -/
theorem plain_chars : ∀ v : Value, Plain v.chars
  | .null => by decide
  | .bool true => by decide
  | .bool false => by decide
  | .number (.whole n) => plain_wholeChars n
  | .number (.double x) => plain_render x
  | .string s => plain_quote s
  | .array [] => by decide
  | .array (v :: rest) => by
    have hv := plain_chars v
    have hrest := plain_moreItems rest
    simp only [Value.chars, plain_cons_iff, plain_append_iff, hv, hrest, plain_nil]
    decide
  | .object [] => by decide
  | .object ((name, v) :: rest) => by
    have hv := plain_chars v
    have hrest := plain_moreMembers rest
    simp only [Value.chars, plain_cons_iff, plain_append_iff, plain_quote, hv, hrest, plain_nil]
    decide

theorem plain_moreItems : ∀ items : List Value, Plain (Value.moreItems items)
  | [] => plain_nil
  | v :: rest => by
    have hv := plain_chars v
    have hrest := plain_moreItems rest
    simp only [Value.moreItems, plain_cons_iff, plain_append_iff, hv, hrest]
    decide

theorem plain_moreMembers : ∀ members : List (String × Value), Plain (Value.moreMembers members)
  | [] => plain_nil
  | (name, v) :: rest => by
    have hv := plain_chars v
    have hrest := plain_moreMembers rest
    simp only [Value.moreMembers, plain_cons_iff, plain_append_iff, plain_quote, hv, hrest]
    decide

end

/-! ## Octets -/

/-- The octets of a plain text are no controls. -/
theorem Plain.octets {cs : List Char} (h : Plain cs) : ∀ b ∈ Utf8.encode cs, 0x20 ≤ b.toNat := by
  intro b hb
  rcases List.mem_flatMap.mp hb with ⟨c, hc, hoctet⟩
  rcases Utf8.toNat_of_mem_encodeChar c b hoctet with heq | hhigh
  · rw [heq]
    exact h c hc
  · omega

end Json

end SourceMarkers
