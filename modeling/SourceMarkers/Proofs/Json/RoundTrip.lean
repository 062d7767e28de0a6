import SourceMarkers.Proofs.Json.Members
import SourceMarkers.Proofs.Json.Tokens

/-!
# Reading back values

A text of a readable value reads back as that value, wherever blanks stand between
its tokens; the compact text is the one that has none.

The reader of a list is given the reader of its items, and here too the two
are kept apart: `GivesBack item v` says that a reader gives `v` back from its
texts, and the lemmas about lists and objects take it of each part. So nothing
is proved by recursion over values. The only induction over the nesting is the
one of `givesBack_value`, along the recursion of the reader itself, and what
it needs of the parts of a value is what `Value.Readable` says of them.

Going around a list is bounded by the length of the text. A list has no more
items than its text has characters, which is all that the bound has to meet.

## Main definitions

* `GivesBack`: A reader gives a value back from its texts.

## Theorems

* `givesBack_scalar`: A value without brackets is given back.
* `itemsFrom_itemTokens`, `membersFrom_memberTokens`: The insides of brackets.
* `givesBack_array`, `givesBack_object`: A list or an object is given back when
  its parts are.
* `givesBack_value`: A readable value is given back.
* `parseChars_of_isTextOf`, `parseChars_of_isTextOf_object`: A text of a readable
  value is read as that value, and one of an object up to the order of its members.
* `parseChars_chars`, `parseChars_array`, `parseChars_object`: So are the compact
  texts.
-/

namespace SourceMarkers

namespace Json

/-- A reader gives back a value from its texts, whatever follows. -/
def GivesBack (item : Scan Value) (v : Value) : Prop :=
  ∀ cs tail, Spaced v.tokens cs → EndsNumber tail → item (cs ++ tail) = .ok (v, tail)

/-! ## Where values start -/

theorem ne_of_isDigit (c d : Char) (hc : c.isDigit = true) (hd : d.isDigit = false) : c ≠ d := by
  rintro rfl
  rw [hc] at hd
  exact absurd hd (by decide)

theorem isBlank_of_isDigit (c : Char) (h : c.isDigit = true) : isBlank c = false := by
  have hspace := ne_of_isDigit c ' ' h rfl
  have htab := ne_of_isDigit c '\t' h rfl
  have hline := ne_of_isDigit c '\n' h rfl
  have hreturn := ne_of_isDigit c '\r' h rfl
  simp only [isBlank, hspace, htab, hline, hreturn, decide_false, Bool.or_self]

/-- A written value starts with neither a blank nor a closing bracket. -/
theorem chars_eq_cons (v : Value) (h : v.Whole) :
    ∃ c cs, v.chars = c :: cs ∧ isBlank c = false ∧ c ≠ ']' := by
  -- Digits are the only start that is not known from the shape of the value.
  cases v with
  | null => exact ⟨'n', _, rfl, by decide, by decide⟩
  | bool b =>
    cases b with
    | true => exact ⟨'t', _, rfl, by decide, by decide⟩
    | false => exact ⟨'f', _, rfl, by decide, by decide⟩
  | number n =>
    cases n with
    | double x => exact absurd h id
    | whole n =>
      rw [Value.chars, Number.chars, wholeChars]
      by_cases hneg : n < 0
      · rw [if_pos hneg]
        exact ⟨'-', _, rfl, by decide, by decide⟩
      · rw [if_neg hneg]
        cases hdigits : Nat.toDigits 10 n.natAbs with
        | nil => exact absurd hdigits Nat.toDigits_ne_nil
        | cons c cs =>
          have hdigit := isDigit_of_mem_toDigits n.natAbs c (by
            rw [hdigits]
            exact List.mem_cons_self)
          exact ⟨c, cs, rfl, isBlank_of_isDigit c hdigit, ne_of_isDigit c ']' hdigit rfl⟩
  | string s => exact ⟨'"', _, rfl, by decide, by decide⟩
  | array items => cases items <;> exact ⟨'[', _, rfl, by decide, by decide⟩
  | object members => cases members <;> exact ⟨'\x7b', _, rfl, by decide, by decide⟩

/-- So does its first token. -/
theorem tokens_eq_cons (v : Value) (h : v.Whole) :
    ∃ c token rest, v.tokens = (c :: token) :: rest ∧ isBlank c = false ∧ c ≠ ']' := by
  rcases chars_eq_cons v h with ⟨c, cs, hchars, hblank, hclose⟩
  cases v with
  | array items =>
    cases items <;> exact ⟨'[', [], _, by rw [Value.tokens], by decide, by decide⟩
  | object members =>
    cases members <;> exact ⟨'\x7b', [], _, by rw [Value.tokens], by decide, by decide⟩
  | null | bool | number | string =>
    exact ⟨c, cs, [], by rw [Value.tokens, hchars], hblank, hclose⟩

/-! ## Values without brackets -/

/-- A whole number with its sign is kept whole. -/
theorem keepWhole?_natAbs (n : Int) (h : Value.FitsWhole n) :
    keepWhole? (decide (n < 0)) n.natAbs = some n := by
  rcases h with ⟨hlow, hhigh⟩
  unfold keepWhole?
  by_cases hneg : n < 0
  · rw [if_pos (decide_eq_true hneg), if_pos (by omega)]
    exact congrArg some (by omega)
  · rw [if_neg (by simpa using hneg), if_pos (by omega)]
    exact congrArg some (by omega)

/-- A reader of values comes to a number by its first digit. -/
theorem valueWith_digit (bound : Nat) (inner : Option (Scan Value)) (c : Char) (cs : List Char)
    (h : c.isDigit = true) :
    valueWith bound inner (c :: cs) =
      (do let (n, cs) ← number false (c :: cs); .ok (.number n, cs)) := by
  have hn := ne_of_isDigit c 'n' h rfl
  have ht := ne_of_isDigit c 't' h rfl
  have hf := ne_of_isDigit c 'f' h rfl
  have hminus := ne_of_isDigit c '-' h rfl
  unfold valueWith
  simp only [skipBlank_cons c cs (isBlank_of_isDigit c h), hn, ht, hf, hminus, h, if_false,
    if_true]

theorem valueWith_whole (bound : Nat) (inner : Option (Scan Value)) (n : Int)
    (h : Value.FitsWhole n) (tail : List Char) (htail : EndsNumber tail) :
    valueWith bound inner ((Value.ofInt n).chars ++ tail) = .ok (.ofInt n, tail) := by
  have hkeep := keepWhole?_natAbs n h
  -- A sign is read by its own branch, and digits by the one that comes last.
  by_cases hneg : n < 0
  · rw [decide_eq_true hneg] at hkeep
    have hnumber := number_toDigits true n.natAbs n tail hkeep htail
    simp only [Value.ofInt, Value.chars, Number.chars, wholeChars, if_pos hneg, List.cons_append]
    unfold valueWith
    simp only [skipBlank_cons '-' _ rfl, Char.reduceEq, if_false, if_true, hnumber, bind,
      Except.bind]
  · rw [decide_eq_false hneg] at hkeep
    have hnumber := number_toDigits false n.natAbs n tail hkeep htail
    simp only [Value.ofInt, Value.chars, Number.chars, wholeChars, if_neg hneg]
    cases hdigits : Nat.toDigits 10 n.natAbs with
    | nil => exact absurd hdigits Nat.toDigits_ne_nil
    | cons c cs =>
      have hdigit := isDigit_of_mem_toDigits n.natAbs c (by rw [hdigits]; exact List.mem_cons_self)
      rw [hdigits, List.cons_append] at hnumber
      rw [List.cons_append, valueWith_digit bound inner c _ hdigit, hnumber]
      rfl

theorem valueWith_string (bound : Nat) (inner : Option (Scan Value)) (s : String)
    (tail : List Char) :
    valueWith bound inner ((Value.string s).chars ++ tail) = .ok (.string s, tail) := by
  rcases stringBody_quote s tail with ⟨body, htext, hbody⟩
  rw [Value.chars, htext]
  unfold valueWith
  have hdigit : '"'.isDigit = false := rfl
  simp only [skipBlank_cons '"' body rfl, Char.reduceEq, hdigit, Bool.false_eq_true, if_false,
    if_true, hbody, bind, Except.bind]

/-- A value without brackets is read from its compact text. -/
theorem valueWith_scalar (bound : Nat) (inner : Option (Scan Value)) (v : Value) (h : v.Whole)
    (hdepth : v.depth = 0) (tail : List Char) (htail : EndsNumber tail) :
    valueWith bound inner (v.chars ++ tail) = .ok (v, tail) := by
  cases v with
  | null => rfl
  | bool b => cases b <;> rfl
  | number n =>
    cases n with
    | whole n => exact valueWith_whole bound inner n h tail htail
    | double x => exact absurd h id
  | string s => exact valueWith_string bound inner s tail
  | array items => exact absurd hdepth (Nat.succ_ne_zero _)
  | object members => exact absurd hdepth (Nat.succ_ne_zero _)

/-- A reader of values passes over blanks first. -/
theorem valueWith_of_skipBlank (bound : Nat) (inner : Option (Scan Value)) (cs cs' : List Char)
    (h : skipBlank cs = skipBlank cs') : valueWith bound inner cs = valueWith bound inner cs' := by
  unfold valueWith
  rw [h]

theorem tokens_of_depth_zero (v : Value) (h : v.depth = 0) : v.tokens = [v.chars] := by
  cases v with
  | array items => exact absurd h (Nat.succ_ne_zero _)
  | object members => exact absurd h (Nat.succ_ne_zero _)
  | null | bool | number | string => rw [Value.tokens]

/-- A value without brackets is given back, with or without room for more. -/
theorem givesBack_scalar (bound : Nat) (inner : Option (Scan Value)) (v : Value) (h : v.Whole)
    (hdepth : v.depth = 0) : GivesBack (valueWith bound inner) v := by
  intro cs tail hspaced htail
  rw [tokens_of_depth_zero v hdepth] at hspaced
  rcases hspaced with _ | ⟨blank, _, _, _, hblank, ⟨⟩⟩
  have hread := valueWith_scalar bound inner v h hdepth tail htail
  rw [← valueWith_of_skipBlank bound inner _ _ (skipBlank_append blank _ hblank)] at hread
  rw [List.append_nil, List.append_assoc, hread]

/-! ## Lists -/

/-- The items of a list are read up to the closing bracket, behind the ones in
    `done`. -/
theorem itemsFrom_itemTokens (item : Scan Value) (v : Value) (rest : List Value)
    (hv : GivesBack item v) (hrest : ∀ w ∈ rest, GivesBack item w ∧ w.Whole) (bound : Nat)
    (hbound : rest.length < bound) (done : List Value) (cs tail : List Char)
    (hspaced : Spaced (v.tokens ++ (Value.itemTokens rest ++ [[']']])) cs) :
    itemsFrom item bound done (cs ++ tail) = .ok (done.reverse ++ v :: rest, tail) := by
  induction rest generalizing v bound done cs with
  | nil =>
    cases bound with
    | zero => exact absurd hbound (Nat.not_lt_zero _)
    | succ bound =>
      -- The last item: a bracket follows.
      rcases (spaced_append_iff _ _ cs).mp hspaced with ⟨front, back, rfl, hfront, hback⟩
      have hread := hv front (back ++ tail) hfront (hback.endsNumber (Or.inr (Or.inl rfl)) tail)
      rcases hback.skip rfl with ⟨_, ⟨⟩, hskip⟩
      rw [itemsFrom, List.append_assoc, hread]
      simp only [bind, Except.bind, hskip, List.cons_append, List.nil_append, if_true,
        List.reverse_cons]
  | cons w rest ih =>
    cases bound with
    | zero => exact absurd hbound (Nat.not_lt_zero _)
    | succ bound =>
      -- A comma follows, and behind it the next item, which is no bracket.
      rcases hrest w List.mem_cons_self with ⟨hw, hwhole⟩
      rcases (spaced_append_iff _ _ cs).mp hspaced with ⟨front, back, rfl, hfront, hback⟩
      have hread := hv front (back ++ tail) hfront (hback.endsNumber (Or.inl rfl) tail)
      rw [Value.itemTokens, List.cons_append, List.append_assoc] at hback
      rcases hback.skip rfl with ⟨more, hmore, hcomma⟩
      rcases tokens_eq_cons w hwhole with ⟨c, token, others, htokens, hblank, hclose⟩
      rw [htokens, List.cons_append] at hmore
      rcases hmore.skip hblank with ⟨last, hlast, hskip⟩
      have hnext := ih w hw (fun x hx => hrest x (List.mem_cons_of_mem _ hx)) bound
        (Nat.lt_of_succ_lt_succ hbound) (v :: done) (c :: token ++ last) (by
          rw [htokens, List.cons_append]
          exact hlast.token (c :: token))
      rw [List.append_assoc, List.cons_append] at hnext
      rw [itemsFrom, List.append_assoc, hread]
      simp only [bind, Except.bind, hcomma, hskip, List.cons_append, List.nil_append, Char.reduceEq,
        if_false, if_true, hclose, hnext, List.reverse_cons, List.append_assoc]

theorem length_le_length_moreItems (items : List Value) :
    items.length ≤ (Value.moreItems items).length := by
  induction items with
  | nil => exact Nat.le_refl 0
  | cons v rest ih =>
    simp only [Value.moreItems, List.length_cons, List.length_append]
    omega

/-- A list is given back when its items are. -/
theorem givesBack_array (item : Scan Value) (values : List Value)
    (h : ∀ v ∈ values, GivesBack item v ∧ v.Whole) (bound : Nat)
    (hbound : (Value.array values).chars.length ≤ bound) :
    GivesBack (valueWith bound (some item)) (.array values) := by
  intro cs tail hspaced _
  have hdigit : '['.isDigit = false := rfl
  cases values with
  | nil =>
    rcases hspaced.skip rfl with ⟨more, hmore, hskip⟩
    rcases hmore.skip rfl with ⟨_, ⟨⟩, hclose⟩
    unfold valueWith
    simp only [hskip, List.cons_append, List.nil_append, Char.reduceEq, hdigit, Bool.false_eq_true,
      if_false, if_true, items, hclose, bind, Except.bind]
  | cons v rest =>
    rcases h v List.mem_cons_self with ⟨hv, hwhole⟩
    -- Every item takes up a character, so the text bounds their number.
    have hlength := length_le_length_moreItems rest
    rw [Value.chars, List.length_append, List.cons_append, List.length_cons, List.length_append]
      at hbound
    rw [Value.tokens] at hspaced
    rcases hspaced.skip rfl with ⟨more, hmore, hopen⟩
    rcases tokens_eq_cons v hwhole with ⟨c, token, others, htokens, hblank, hclose⟩
    rw [htokens, List.cons_append] at hmore
    rcases hmore.skip hblank with ⟨last, hlast, hskip⟩
    have hitems := itemsFrom_itemTokens item v rest hv
      (fun w hw => h w (List.mem_cons_of_mem _ hw)) bound (by omega) [] (c :: token ++ last) tail (by
        rw [htokens, List.cons_append]
        exact hlast.token (c :: token))
    rw [List.append_assoc, List.cons_append] at hitems
    unfold valueWith
    simp only [hopen, List.cons_append, List.nil_append, Char.reduceEq, hdigit, Bool.false_eq_true,
      if_false, if_true, items, hskip, hclose, hitems, bind, Except.bind, List.reverse_nil]

/-! ## Objects -/

/-- A member is read from behind the opening quote of its name. -/
theorem member_tokens (item : Scan Value) (name : String) (v : Value) (hv : GivesBack item v)
    (cs tail : List Char) (hspaced : Spaced ([':'] :: v.tokens) cs) (htail : EndsNumber tail) :
    ∃ body, quote name ++ (cs ++ tail) = '"' :: body ∧
      member item body = .ok ((name, v), tail) := by
  rcases stringBody_quote name (cs ++ tail) with ⟨body, htext, hbody⟩
  rcases hspaced.skip rfl with ⟨more, hmore, hskip⟩
  refine ⟨body, htext, ?_⟩
  unfold member
  simp only [hbody, bind, Except.bind, hskip, List.cons_append, List.nil_append, if_true,
    hv more tail hmore htail]

/-- A name starts with its quote. -/
theorem quote_eq_cons (name : String) : ∃ rest, quote name = '"' :: rest := ⟨_, rfl⟩

/-- The members of an object are read up to the closing brace, behind the ones
    in `done`. -/
theorem membersFrom_memberTokens (item : Scan Value) (name : String) (v : Value)
    (rest : List (String × Value)) (hv : GivesBack item v)
    (hrest : ∀ m ∈ rest, GivesBack item m.2) (bound : Nat) (hbound : rest.length < bound)
    (done : List (String × Value)) (cs tail : List Char)
    (hspaced : Spaced ([':'] :: v.tokens ++ (Value.memberTokens rest ++ [['\x7d']])) cs) :
    ∃ body, quote name ++ (cs ++ tail) = '"' :: body ∧
      membersFrom item bound done body = .ok (done.reverse ++ (name, v) :: rest, tail) := by
  induction rest generalizing name v bound done cs with
  | nil =>
    cases bound with
    | zero => exact absurd hbound (Nat.not_lt_zero _)
    | succ bound =>
      -- The last member: a brace follows.
      rcases (spaced_append_iff _ _ cs).mp hspaced with ⟨front, back, rfl, hfront, hback⟩
      rcases member_tokens item name v hv front (back ++ tail) hfront
        (hback.endsNumber (Or.inr (Or.inr rfl)) tail) with ⟨body, htext, hmember⟩
      rcases hback.skip rfl with ⟨_, ⟨⟩, hskip⟩
      refine ⟨body, by rw [List.append_assoc, htext], ?_⟩
      simp only [membersFrom, hmember, bind, Except.bind, hskip, List.cons_append, List.nil_append,
        if_true, List.reverse_cons]
  | cons m rest ih =>
    cases bound with
    | zero => exact absurd hbound (Nat.not_lt_zero _)
    | succ bound =>
      rcases m with ⟨next, w⟩
      rcases (spaced_append_iff _ _ cs).mp hspaced with ⟨front, back, rfl, hfront, hback⟩
      rcases member_tokens item name v hv front (back ++ tail) hfront
        (hback.endsNumber (Or.inl rfl) tail) with ⟨body, htext, hmember⟩
      -- The members behind this one start with the quote of the next name.
      rcases quote_eq_cons next with ⟨letters, hquote⟩
      rw [Value.memberTokens, List.cons_append, List.cons_append, List.cons_append,
        List.append_assoc, hquote] at hback
      rcases hback.skip rfl with ⟨more, hmore, hcomma⟩
      rcases hmore.skip rfl with ⟨last, hlast, hskip⟩
      rcases ih next w (hrest _ List.mem_cons_self)
        (fun x hx => hrest x (List.mem_cons_of_mem _ hx)) bound (Nat.lt_of_succ_lt_succ hbound)
        ((name, v) :: done) last hlast with ⟨others, hothers, hmembers⟩
      rw [hquote, List.cons_append, List.cons.injEq] at hothers
      refine ⟨body, by rw [List.append_assoc, htext], ?_⟩
      simp only [membersFrom, hmember, bind, Except.bind, hcomma, hskip, List.cons_append,
        List.nil_append, Char.reduceEq, if_false, if_true, hothers.2, hmembers, List.reverse_cons,
        List.append_assoc]

theorem length_le_length_moreMembers (members : List (String × Value)) :
    members.length ≤ (Value.moreMembers members).length := by
  induction members with
  | nil => exact Nat.le_refl 0
  | cons m rest ih =>
    rcases m with ⟨name, v⟩
    simp only [Value.moreMembers, List.length_cons, List.length_append]
    omega

/-- An object is read when its values are given back, and its members are put in
    order. -/
theorem valueWith_object (item : Scan Value) (held : List (String × Value))
    (h : ∀ m ∈ held, GivesBack item m.2) (bound : Nat)
    (hbound : (Value.object held).chars.length ≤ bound) (cs tail : List Char)
    (hspaced : Spaced (Value.object held).tokens cs) :
    valueWith bound (some item) (cs ++ tail) = .ok (Value.ofMembers held, tail) := by
  have hdigit : '\x7b'.isDigit = false := rfl
  cases held with
  | nil =>
    rcases hspaced.skip rfl with ⟨more, hmore, hskip⟩
    rcases hmore.skip rfl with ⟨_, ⟨⟩, hclose⟩
    unfold valueWith
    simp only [hskip, List.cons_append, List.nil_append, Char.reduceEq, hdigit, Bool.false_eq_true,
      if_false, if_true, members, hclose, bind, Except.bind]
  | cons m rest =>
    rcases m with ⟨name, v⟩
    have hlength := length_le_length_moreMembers rest
    simp only [Value.chars, List.length_append, List.cons_append, List.length_cons] at hbound
    rw [Value.tokens] at hspaced
    rcases hspaced.skip rfl with ⟨more, hmore, hopen⟩
    rcases quote_eq_cons name with ⟨letters, hquote⟩
    rw [hquote] at hmore
    rcases hmore.skip rfl with ⟨last, hlast, hskip⟩
    rcases membersFrom_memberTokens item name v rest (h _ List.mem_cons_self)
      (fun x hx => h x (List.mem_cons_of_mem _ hx)) bound (by omega) [] last tail hlast with
      ⟨body, hbody, hmembers⟩
    rw [hquote, List.cons_append, List.cons.injEq] at hbody
    unfold valueWith
    simp only [hopen, List.cons_append, List.nil_append, Char.reduceEq, hdigit, Bool.false_eq_true,
      if_false, if_true, members, hskip, hbody.2, hmembers, bind, Except.bind, List.reverse_nil]

/-- An object whose members are in order is given back when its values
    are. -/
theorem givesBack_object (item : Scan Value) (held : List (String × Value))
    (h : ∀ m ∈ held, GivesBack item m.2) (hordered : (held.map Prod.fst).Pairwise (· < ·))
    (bound : Nat) (hbound : (Value.object held).chars.length ≤ bound) :
    GivesBack (valueWith bound (some item)) (.object held) := by
  intro cs tail hspaced _
  rw [valueWith_object item held h bound hbound cs tail hspaced, Value.ofMembers,
    orderMembers_eq_self held hordered]

/-! ## Values -/

theorem length_chars_le_moreItems (items : List Value) (v : Value) (h : v ∈ items) :
    v.chars.length ≤ (Value.moreItems items).length := by
  induction items with
  | nil => exact absurd h List.not_mem_nil
  | cons first rest ih =>
    simp only [Value.moreItems, List.length_cons, List.length_append]
    rcases List.mem_cons.mp h with rfl | h
    · omega
    · have := ih h
      omega

theorem length_chars_le_moreMembers (members : List (String × Value)) (m : String × Value)
    (h : m ∈ members) : m.2.chars.length ≤ (Value.moreMembers members).length := by
  induction members with
  | nil => exact absurd h List.not_mem_nil
  | cons first rest ih =>
    simp only [Value.moreMembers, List.length_cons, List.length_append]
    rcases List.mem_cons.mp h with rfl | h
    · omega
    · have := ih h
      omega

/-- The text of an item is no longer than the text of its list. -/
theorem length_chars_item (items : List Value) (v : Value) (h : v ∈ items) :
    v.chars.length ≤ (Value.array items).chars.length := by
  have hle := length_chars_le_moreItems items v h
  cases items with
  | nil => exact absurd h List.not_mem_nil
  | cons first rest =>
    simp only [Value.moreItems, Value.chars, List.length_cons, List.length_append] at hle ⊢
    omega

/-- The text of a member's value is no longer than the text of its object. -/
theorem length_chars_member (members : List (String × Value)) (m : String × Value)
    (h : m ∈ members) : m.2.chars.length ≤ (Value.object members).chars.length := by
  have hle := length_chars_le_moreMembers members m h
  cases members with
  | nil => exact absurd h List.not_mem_nil
  | cons first rest =>
    -- The bracket in front of the first member takes the place of a comma.
    simp only [Value.moreMembers, Value.chars, List.length_cons, List.length_append] at hle ⊢
    omega

/-- A readable value is given back by the reader with its nesting limit. -/
theorem givesBack_value (bound limit : Nat) (v : Value) (h : v.Readable limit)
    (hbound : v.chars.length ≤ bound) : GivesBack (value bound limit) v := by
  -- The limit goes down by one with every bracket that is opened; the text of
  -- what is inside is part of the text around it.
  induction limit generalizing v with
  | zero => exact givesBack_scalar bound none v h.whole (Nat.le_zero.mp h.shallow)
  | succ limit ih =>
    by_cases hscalar : v.depth = 0
    · exact givesBack_scalar bound _ v h.whole hscalar
    rw [value]
    cases v with
    | array items =>
      have hitems := (Value.readable_array_iff limit items).mp h
      refine givesBack_array _ items (fun w hw => ⟨ih w (hitems w hw) ?_, (hitems w hw).whole⟩)
        bound hbound
      exact Nat.le_trans (length_chars_item items w hw) hbound
    | object members =>
      rcases (Value.readable_object_iff limit members).mp h with ⟨hordered, hmembers⟩
      refine givesBack_object _ members (fun m hm => ih m.2 (hmembers m hm) ?_) hordered bound
        hbound
      exact Nat.le_trans (length_chars_member members m hm) hbound
    | null | bool | number | string => exact absurd rfl hscalar

/-- A text is read as a value when its reader gives the value, and nothing but
    blanks is left. -/
theorem parseChars_of_value (cs blank : List Char) (v : Value) (hblank : Blanks blank)
    (h : value cs.length depthLimit cs = .ok (v, blank)) : parseChars cs = .ok v := by
  simp only [parseChars, wholeText, h, bind, Except.bind, skipBlank_blanks blank hblank]

/-- The compact text of a value is no longer than any other text of it. -/
theorem IsTextOf.length_le {cs : List Char} {v : Value} (h : IsTextOf cs v) :
    v.chars.length ≤ cs.length := by
  rcases h with ⟨body, blank, rfl, hspaced, _⟩
  rw [← v.flatten_tokens, List.length_append]
  exact Nat.le_trans hspaced.length_le (Nat.le_add_right _ _)

/-- A text of a readable value is read as that value, blanks or not. -/
theorem parseChars_of_isTextOf (cs : List Char) (v : Value) (h : IsTextOf cs v)
    (hreadable : v.Readable depthLimit) : parseChars cs = .ok v := by
  have hvalue := givesBack_value cs.length depthLimit v hreadable h.length_le
  rcases h with ⟨body, blank, rfl, hspaced, hblank⟩
  have htail := endsNumber_blanks blank [] hblank trivial
  rw [List.append_nil] at htail
  exact parseChars_of_value _ blank v hblank (hvalue body blank hspaced htail)

/-- Blanks of all kinds, wherever they can stand. -/
example : parseChars ['\t', '[', ' ', 't', 'r', 'u', 'e', '\n', ',', '[', '\r', ']', ']', ' '] =
    .ok (.array [.bool true, .array []]) := rfl

/-- A text of an object with readable values is read as that object, with its
    members in order. -/
theorem parseChars_of_isTextOf_object (cs : List Char) (held : List (String × Value))
    (h : IsTextOf cs (.object held)) (hreadable : ∀ m ∈ held, m.2.Readable (depthLimit - 1)) :
    parseChars cs = .ok (Value.ofMembers held) := by
  have hlength : ∀ m ∈ held, m.2.chars.length ≤ cs.length := fun m hm =>
    Nat.le_trans (length_chars_member held m hm) h.length_le
  have hobject := valueWith_object (value cs.length (depthLimit - 1)) held
    (fun m hm => givesBack_value _ _ m.2 (hreadable m hm) (hlength m hm)) _ h.length_le
  rcases h with ⟨body, blank, rfl, hspaced, hblank⟩
  exact parseChars_of_value _ blank _ hblank (hobject body blank hspaced)

/-- The compact text of a readable value is read as that value. -/
theorem parseChars_chars (v : Value) (h : v.Readable depthLimit) : parseChars v.chars = .ok v :=
  parseChars_of_isTextOf v.chars v (isTextOf_chars v) h

/-- So is the text of a list of readable values. -/
theorem parseChars_array (values : List Value)
    (h : ∀ v ∈ values, v.Readable (depthLimit - 1)) :
    parseChars (Value.array values).chars = .ok (.array values) :=
  parseChars_chars _ ((Value.readable_array_iff (depthLimit - 1) values).mpr h)

/-- The compact text of an object with readable values is read as that object, with
    its members in order. -/
theorem parseChars_object (held : List (String × Value))
    (h : ∀ m ∈ held, m.2.Readable (depthLimit - 1)) :
    parseChars (Value.object held).chars = .ok (Value.ofMembers held) :=
  parseChars_of_isTextOf_object _ held (isTextOf_chars _) h

end Json

end SourceMarkers
