import SourceMarkers.Text.Utf8

/-!
# Reading back what was written

The octets of a text read back as that text, in both readings. So the strict
reading accepts every text the program writes, and text that only passes
through octets is never changed.

The whole argument is about one character: `firstPiece_encodeChar` says that
the octets of a character, whatever follows them, start with a piece that is
that character. It splits along the four lengths, and each length is a
calculation with the payload bits of the octets.

## Theorems

* `encode_nil`, `encode_cons`, `encode_append`: Writing goes character by
  character.
* `firstPiece_encodeChar`: A written character is the first piece.
* `pieces_encode`: The pieces of a written text are its characters.
* `decode_encode`: The strict reading gives the text back.
* `decodeLossy_encode`: So does the reading that replaces.
-/

namespace SourceMarkers

namespace Utf8

@[simp] theorem encode_nil : encode [] = [] := rfl

@[simp] theorem encode_cons (c : Char) (cs : List Char) :
    encode (c :: cs) = encodeChar c ++ encode cs := rfl

@[simp] theorem encode_append (cs ds : List Char) :
    encode (cs ++ ds) = encode cs ++ encode ds := by
  simp only [encode, List.flatMap_append]

/-- A scalar value is no surrogate and at most `0x10FFFF`. -/
theorem toNat_scalar (c : Char) :
    c.toNat < 0xD800 ∨ 0xDFFF < c.toNat ∧ c.toNat < 0x110000 := c.valid

theorem toNat_octet (n : Nat) (h : n < 256) : (UInt8.ofNat n).toNat = n := by
  rw [UInt8.toNat_ofNat']
  omega

theorem isTail_octet (n : Nat) : isTail (UInt8.ofNat (0x80 + n % 64)) = true := by
  rw [isTail, toNat_octet _ (by omega), beq_iff_eq]
  omega

theorem payload_octet (n : Nat) : payload (UInt8.ofNat (0x80 + n % 64)) = n % 64 := by
  rw [payload, toNat_octet _ (by omega)]
  omega

/-- An octet of a character is the character itself, or none that stands for a
    character alone. -/
theorem toNat_of_mem_encodeChar (c : Char) (b : UInt8) (h : b ∈ encodeChar c) :
    b.toNat = c.toNat ∨ 0x80 ≤ b.toNat := by
  have hscalar := toNat_scalar c
  unfold encodeChar at h
  generalize c.toNat = n at *
  simp only [] at h
  split at h
  · rw [List.mem_singleton.mp h]
    exact Or.inl (toNat_octet n (by omega))
  -- All octets of a longer form have the top bit set.
  refine Or.inr ?_
  split at h
  · simp only [List.mem_cons, List.not_mem_nil, or_false] at h
    rcases h with rfl | rfl <;> rw [toNat_octet _ (by omega)] <;> omega
  split at h
  · simp only [List.mem_cons, List.not_mem_nil, or_false] at h
    rcases h with rfl | rfl | rfl <;> rw [toNat_octet _ (by omega)] <;> omega
  · simp only [List.mem_cons, List.not_mem_nil, or_false] at h
    rcases h with rfl | rfl | rfl | rfl <;> rw [toNat_octet _ (by omega)] <;> omega

/-- The octets of a character, whatever follows them, start with a piece that
    is that character. -/
theorem firstPiece_encodeChar (c : Char) (rest : List UInt8) :
    ∃ b tail, encodeChar c = b :: tail ∧ firstPiece b (tail ++ rest) = .char c := by
  have hscalar := toNat_scalar c
  have hback : Char.ofNat c.toNat = c := Char.ofNat_toNat c
  unfold encodeChar
  generalize c.toNat = n at *
  -- One case for each length; the payloads of the octets make up the number.
  by_cases h1 : n < 0x80
  · refine ⟨_, _, if_pos h1, ?_⟩
    simp only [firstPiece, toNat_octet n (by omega), if_pos h1, hback]
  by_cases h2 : n < 0x800
  · refine ⟨_, _, by rw [if_neg h1, if_pos h2], ?_⟩
    have hvalue : (0xC0 + n / 64 - 0xC0) * 64 + n % 64 = n := by omega
    simp only [firstPiece, toNat_octet (0xC0 + n / 64) (by omega), List.cons_append,
      isTail_octet, payload_octet, hvalue, hback, if_true]
    rw [if_neg (by omega), if_neg (by omega), if_pos (by omega)]
  by_cases h3 : n < 0x10000
  · refine ⟨_, _, by rw [if_neg h1, if_neg h2, if_pos h3], ?_⟩
    have htop : (0xE0 + n / 4096 - 0xE0) * 64 + n / 64 % 64 = n / 64 := by omega
    have hvalue : n / 64 * 64 + n % 64 = n := by omega
    -- The form is not too long for the number, which is no surrogate.
    have hstarts : startsThree (n / 64) = true := by
      simp only [startsThree, Bool.and_eq_true, decide_eq_true_eq, Bool.not_eq_true',
        Bool.and_eq_false_iff, decide_eq_false_iff_not]
      omega
    simp only [firstPiece, toNat_octet (0xE0 + n / 4096) (by omega), List.cons_append,
      isTail_octet, payload_octet, htop, hstarts, hvalue, hback, Bool.and_self, if_true]
    rw [if_neg (by omega), if_neg (by omega), if_neg (by omega), if_pos (by omega)]
  · refine ⟨_, _, by rw [if_neg h1, if_neg h2, if_neg h3], ?_⟩
    have htop : (0xF0 + n / 262144 - 0xF0) * 64 + n / 4096 % 64 = n / 4096 := by omega
    have hvalue : (n / 4096 * 64 + n / 64 % 64) * 64 + n % 64 = n := by omega
    have hstarts : startsFour (n / 4096) = true := by
      simp only [startsFour, Bool.and_eq_true, decide_eq_true_eq]
      omega
    simp only [firstPiece, toNat_octet (0xF0 + n / 262144) (by omega), List.cons_append,
      isTail_octet, payload_octet, htop, hstarts, hvalue, hback, Bool.and_self, if_true]
    rw [if_neg (by omega), if_neg (by omega), if_neg (by omega), if_neg (by omega),
      if_pos (by omega)]

/-- Octets that belong to the last piece are passed over. -/
theorem piecesFrom_skip (skipped : List UInt8) (done : List Piece) (rest : List UInt8) :
    piecesFrom skipped.length done (skipped ++ rest) = piecesFrom 0 done rest := by
  induction skipped with
  | nil => rfl
  | cons b bs ih => exact ih

theorem piecesFrom_encode (cs : List Char) (done : List Piece) :
    piecesFrom 0 done (encode cs) = done.reverse ++ cs.map Piece.char := by
  induction cs generalizing done with
  | nil => simp only [encode_nil, piecesFrom, List.map_nil, List.append_nil]
  | cons c cs ih =>
    rcases firstPiece_encodeChar c (encode cs) with ⟨b, tail, hoctets, hpiece⟩
    rw [encode_cons, hoctets, List.cons_append]
    simp only [piecesFrom, hpiece, Piece.width, hoctets, List.length_cons,
      Nat.add_one_sub_one, piecesFrom_skip, ih, List.reverse_cons, List.append_assoc,
      List.singleton_append, List.map_cons]

/-- The pieces of a written text are its characters. -/
theorem pieces_encode (cs : List Char) : pieces (encode cs) = cs.map Piece.char := by
  rw [pieces, piecesFrom_encode, List.reverse_nil, List.nil_append]

theorem collect_chars (cs : List Char) (index : Nat) (done : List Char) :
    collect index done (cs.map Piece.char) = .ok (done.reverse ++ cs) := by
  induction cs generalizing index done with
  | nil => simp only [List.map_nil, collect, List.append_nil]
  | cons c cs ih =>
    simp only [List.map_cons, collect, ih, List.reverse_cons, List.append_assoc,
      List.singleton_append]

/-- The strict reading gives back the text that was written. -/
theorem decode_encode (cs : List Char) : decode (encode cs) = .ok cs := by
  rw [decode, pieces_encode, collect_chars, List.reverse_nil, List.nil_append]

/-- The reading that replaces finds nothing to replace in a written text. -/
theorem decodeLossy_encode (cs : List Char) : decodeLossy (encode cs) = cs := by
  rw [decodeLossy, pieces_encode, List.map_map]
  exact List.map_id cs

end Utf8

end SourceMarkers
