import SourceMarkers.Json.Parser
import SourceMarkers.Proofs.Json.Members

/-!
# What readers give

Whatever a text is, a value that is read from it has its members in order, is
not nested deeper than the reader goes, and holds no whole number that is out of
range. If it holds no double either, it is written in a way that reads back.

This is the other side of reading back: there a value is given, and its text is
read; here a text is given, and nothing is known of the value but that it was
read. The proof goes along the readers. `Gives item p` says that all that a
reader gives has a property, and what is inside of brackets has the property
that the reader of the inside gives.

## Main definitions

* `Value.AllNumbers`: A property of all numbers inside a value.
* `Value.DoubleFree`: No number inside is a double.
* `Value.Given`: What a reader may give within a nesting limit.
* `Gives`: All that a reader gives has a property.
* `Comes`: The three things that a reader can come to.
* `writtenMembers?`, `lastMember?`: The members of an object as they are written.

## Theorems

* `Value.Given.readable`: What was read and holds no double reads back.
* `gives_number`: A number that is kept whole is in range.
* `gives_items`, `gives_members`: The insides of brackets.
* `comes_of_valueWith`: A reader comes to one of the three.
* `gives_value`, `given_of_parseChars`: What is read within the nesting limit.
* `writtenMembers?_of_parseChars`: An object that is read is written out.
-/

namespace SourceMarkers

namespace Json

/-! ## Numbers inside of values -/

namespace Number

/-- The number is no double. -/
def IsWhole : Number → Prop
  | .whole _ => True
  | .double _ => False

/-- The number is a double or in the range of whole numbers. -/
def InRange : Number → Prop
  | .whole n => Value.FitsWhole n
  | .double _ => True

end Number

namespace Value

mutual

/-- All numbers inside have a property. -/
def AllNumbers (p : Number → Prop) : Value → Prop
  | .number n => p n
  | .array items => AllNumbersItems p items
  | .object members => AllNumbersMembers p members
  | _ => True

/-- All numbers inside the values of a list have a property. -/
def AllNumbersItems (p : Number → Prop) : List Value → Prop
  | [] => True
  | v :: rest => v.AllNumbers p ∧ AllNumbersItems p rest

/-- All numbers inside the values of the members have a property. -/
def AllNumbersMembers (p : Number → Prop) : List (String × Value) → Prop
  | [] => True
  | (_, v) :: rest => v.AllNumbers p ∧ AllNumbersMembers p rest

end

/-- No number inside is a double. -/
def DoubleFree (v : Value) : Prop := v.AllNumbers Number.IsWhole

theorem allNumbersItems_iff (p : Number → Prop) (items : List Value) :
    AllNumbersItems p items ↔ ∀ v ∈ items, v.AllNumbers p := by
  induction items with
  | nil => simp only [AllNumbersItems, List.not_mem_nil, false_implies, implies_true]
  | cons v rest ih => rw [AllNumbersItems, ih, List.forall_mem_cons]

theorem allNumbersMembers_iff (p : Number → Prop) (members : List (String × Value)) :
    AllNumbersMembers p members ↔ ∀ m ∈ members, m.2.AllNumbers p := by
  induction members with
  | nil => simp only [AllNumbersMembers, List.not_mem_nil, false_implies, implies_true]
  | cons m rest ih => rw [AllNumbersMembers, ih, List.forall_mem_cons]

mutual

/-- Numbers in range that are no doubles are whole. -/
theorem whole_of_inRange : ∀ v : Value, v.AllNumbers Number.InRange → v.DoubleFree → v.Whole
  | .number (.whole _), hrange, _ => hrange
  | .number (.double _), _, hfree => hfree
  | .array items, hrange, hfree => wholeItems_of_inRange items hrange hfree
  | .object members, hrange, hfree => wholeMembers_of_inRange members hrange hfree
  | .null, _, _ => trivial
  | .bool _, _, _ => trivial
  | .string _, _, _ => trivial

theorem wholeItems_of_inRange : ∀ items : List Value, AllNumbersItems Number.InRange items →
    AllNumbersItems Number.IsWhole items → WholeItems items
  | [], _, _ => trivial
  | v :: rest, hrange, hfree =>
    ⟨whole_of_inRange v hrange.1 hfree.1, wholeItems_of_inRange rest hrange.2 hfree.2⟩

theorem wholeMembers_of_inRange : ∀ members : List (String × Value),
    AllNumbersMembers Number.InRange members → AllNumbersMembers Number.IsWhole members →
      WholeMembers members
  | [], _, _ => trivial
  | (_, v) :: rest, hrange, hfree =>
    ⟨whole_of_inRange v hrange.1 hfree.1, wholeMembers_of_inRange rest hrange.2 hfree.2⟩

end

/-- What a reader may give when it may open `limit` brackets inside each
    other. -/
structure Given (limit : Nat) (v : Value) : Prop where
  inRange : v.AllNumbers Number.InRange
  ordered : v.Ordered
  shallow : v.depth ≤ limit

/-- What was read and holds no double reads back. -/
theorem Given.readable {limit : Nat} {v : Value} (h : v.Given limit) (hfree : v.DoubleFree) :
    v.Readable limit :=
  ⟨whole_of_inRange v h.inRange hfree, h.ordered, h.shallow⟩

theorem Given.mono {limit more : Nat} {v : Value} (h : v.Given limit) (hle : limit ≤ more) :
    v.Given more :=
  ⟨h.inRange, h.ordered, Nat.le_trans h.shallow hle⟩

theorem given_null (limit : Nat) : Value.null.Given limit :=
  ⟨trivial, trivial, Nat.zero_le limit⟩

theorem given_bool (limit : Nat) (b : Bool) : (Value.bool b).Given limit :=
  ⟨trivial, trivial, Nat.zero_le limit⟩

theorem given_string (limit : Nat) (s : String) : (Value.string s).Given limit :=
  ⟨trivial, trivial, Nat.zero_le limit⟩

theorem given_number (limit : Nat) (n : Number) (h : n.InRange) : (Value.number n).Given limit :=
  ⟨h, trivial, Nat.zero_le limit⟩

/-- The items of a list were given with one bracket less. -/
theorem given_array_iff (limit : Nat) (items : List Value) :
    (Value.array items).Given (limit + 1) ↔ ∀ v ∈ items, v.Given limit := by
  constructor
  · rintro ⟨hrange, hordered, hshallow⟩ v hv
    rw [depth, Nat.add_le_add_iff_right, depthItems_le_iff] at hshallow
    exact ⟨(allNumbersItems_iff _ items).mp hrange v hv, (orderedItems_iff items).mp hordered v hv,
      hshallow v hv⟩
  · intro h
    refine ⟨(allNumbersItems_iff _ items).mpr fun v hv => (h v hv).inRange,
      (orderedItems_iff items).mpr fun v hv => (h v hv).ordered, ?_⟩
    rw [depth, Nat.add_le_add_iff_right, depthItems_le_iff]
    exact fun v hv => (h v hv).shallow

/-- The members of an object are in order, and their values were given with one
    bracket less. -/
theorem given_object_iff (limit : Nat) (members : List (String × Value)) :
    (Value.object members).Given (limit + 1) ↔
      (members.map Prod.fst).Pairwise (· < ·) ∧ ∀ m ∈ members, m.2.Given limit := by
  constructor
  · rintro ⟨hrange, hordered, hshallow⟩
    rw [depth, Nat.add_le_add_iff_right, depthMembers_le_iff] at hshallow
    exact ⟨hordered.1, fun m hm => ⟨(allNumbersMembers_iff _ members).mp hrange m hm,
      (orderedMembers_iff members).mp hordered.2 m hm, hshallow m hm⟩⟩
  · rintro ⟨hsorted, h⟩
    refine ⟨(allNumbersMembers_iff _ members).mpr fun m hm => (h m hm).inRange,
      ⟨hsorted, (orderedMembers_iff members).mpr fun m hm => (h m hm).ordered⟩, ?_⟩
    rw [depth, Nat.add_le_add_iff_right, depthMembers_le_iff]
    exact fun m hm => (h m hm).shallow

/-- A member of an object was given with one bracket less. -/
theorem Given.member? {limit : Nat} {name : String} {v w : Value} (h : v.Given (limit + 1))
    (hw : v.member? name = some w) : w.Given limit := by
  cases v with
  | object members =>
    rcases List.lookup_eq_some_iff.mp hw with ⟨front, back, hmembers, _⟩
    have hmem : (name, w) ∈ members := by
      rw [hmembers]
      exact List.mem_append_right front List.mem_cons_self
    exact ((given_object_iff limit members).mp h).2 _ hmem
  | _ => exact absurd hw (by simp only [Value.member?, reduceCtorEq, not_false_eq_true])

end Value

/-! ## Readers without nesting -/

/-- All that a reader gives has a property. -/
def Gives {α : Type} (scan : Scan α) (p : α → Prop) : Prop :=
  ∀ cs a rest, scan cs = .ok (a, rest) → p a

theorem bind_eq_ok {ε α β : Type} {x : Except ε α} {f : α → Except ε β} {b : β}
    (h : (x >>= f) = .ok b) : ∃ a, x = .ok a ∧ f a = .ok b := by
  cases x with
  | error e => exact absurd h (by simp only [bind, Except.bind, reduceCtorEq, not_false_eq_true])
  | ok a => exact ⟨a, rfl, h⟩

/-- A reader that has succeeded gave this value, and this rest. -/
theorem eq_of_ok_pair {ε α β : Type} {a b : α} {rest left : β}
    (h : (.ok (a, rest) : Except ε (α × β)) = .ok (b, left)) : a = b ∧ rest = left :=
  Prod.mk.inj (Except.ok.inj h)

/-- What is made of all that a reader gives. -/
theorem gives_map {α β : Type} {scan : Scan α} {f : α → β} {p : β → Prop}
    (h : Gives scan fun a => p (f a)) :
    Gives (fun cs => do let (a, rest) ← scan cs; .ok (f a, rest)) p := by
  intro cs b rest hread
  rcases bind_eq_ok hread with ⟨⟨a, after⟩, ha, hok⟩
  rcases eq_of_ok_pair hok with ⟨rfl, rfl⟩
  exact h cs a after ha

/-- Nothing is given where reading stops. -/
theorem stop_ne_ok {α : Type} {cause : Cause} {ahead : Nat} {rest : List Char} {a : α} :
    stop cause ahead rest ≠ .ok a := by
  simp only [stop, ne_eq, reduceCtorEq, not_false_eq_true]

theorem keepWhole?_inRange (negative : Bool) (n : Nat) (k : Int)
    (h : keepWhole? negative n = some k) : Value.FitsWhole k := by
  unfold keepWhole? at h
  unfold Value.FitsWhole
  -- With a sign or without one, there are 64 bits.
  split at h
  · split at h
    · have hk := Option.some.inj h
      omega
    · exact absurd h (by simp only [reduceCtorEq, not_false_eq_true])
  · split at h
    · have hk := Option.some.inj h
      omega
    · exact absurd h (by simp only [reduceCtorEq, not_false_eq_true])

/-- A number that is kept whole is in range. -/
theorem gives_number (negative : Bool) : Gives (number negative) Number.InRange := by
  intro cs n rest h
  unfold number at h
  rcases bind_eq_ok h with ⟨⟨whole, afterWhole⟩, _, h⟩
  rcases bind_eq_ok h with ⟨⟨fraction, afterFraction⟩, _, h⟩
  rcases bind_eq_ok h with ⟨⟨exponent, afterExponent⟩, _, h⟩
  simp only [] at h
  split at h
  · next k hkept =>
    rcases eq_of_ok_pair h with ⟨rfl, rfl⟩
    -- Only digits without a point and an exponent are kept whole.
    split at hkept
    · exact keepWhole?_inRange negative _ k hkept
    · exact absurd hkept (by simp only [reduceCtorEq, not_false_eq_true])
  · split at h
    · rcases eq_of_ok_pair h with ⟨rfl, rfl⟩
      exact trivial
    · exact absurd h (by simp only [reduceCtorEq, not_false_eq_true])

/-! ## Insides of brackets -/

/-- The items of a list have the property that each of them has. -/
theorem gives_itemsFrom {p : Value → Prop} {item : Scan Value} (hitem : Gives item p)
    (bound : Nat) (done : List Value) (hdone : ∀ v ∈ done, p v) :
    Gives (itemsFrom item bound done) fun values => ∀ v ∈ values, p v := by
  induction bound generalizing done with
  | zero =>
    intro cs values rest h
    exact absurd h stop_ne_ok
  | succ bound ih =>
    intro cs values rest h
    rw [itemsFrom] at h
    rcases bind_eq_ok h with ⟨⟨v, afterItem⟩, hv, h⟩
    -- The item joins those that were read before it.
    have hmore : ∀ w ∈ v :: done, p w := by
      rw [List.forall_mem_cons]
      exact ⟨hitem cs v afterItem hv, hdone⟩
    simp only [] at h
    split at h
    · exact absurd h stop_ne_ok
    split at h
    · rcases eq_of_ok_pair h with ⟨rfl, rfl⟩
      exact fun w hw => hmore w (List.mem_reverse.mp hw)
    split at h
    · split at h
      · exact absurd h stop_ne_ok
      split at h
      · exact absurd h stop_ne_ok
      · exact ih (v :: done) hmore _ values rest h
    · exact absurd h stop_ne_ok

theorem gives_items {p : Value → Prop} {item : Scan Value} (hitem : Gives item p) (bound : Nat) :
    Gives (items bound item) fun values => ∀ v ∈ values, p v := by
  intro cs values rest h
  unfold items at h
  split at h
  · exact absurd h stop_ne_ok
  split at h
  · rcases eq_of_ok_pair h with ⟨rfl, rfl⟩
    exact List.forall_mem_nil p
  · exact gives_itemsFrom hitem bound [] (List.forall_mem_nil p) _ values rest h

theorem gives_member {p : Value → Prop} {item : Scan Value} (hitem : Gives item p) :
    Gives (member item) fun m => p m.2 := by
  intro cs m rest h
  unfold member at h
  rcases bind_eq_ok h with ⟨⟨name, afterName⟩, _, h⟩
  simp only [] at h
  split at h
  · exact absurd h stop_ne_ok
  split at h
  · exact gives_map (f := fun v => (name, v)) (p := fun m => p m.2) hitem _ m rest h
  · exact absurd h stop_ne_ok

/-- The values of the members of an object have the property that each of them
    has. -/
theorem gives_membersFrom {p : Value → Prop} {item : Scan Value} (hitem : Gives item p)
    (bound : Nat) (done : List (String × Value)) (hdone : ∀ m ∈ done, p m.2) :
    Gives (membersFrom item bound done) fun members => ∀ m ∈ members, p m.2 := by
  induction bound generalizing done with
  | zero =>
    intro cs members rest h
    exact absurd h stop_ne_ok
  | succ bound ih =>
    intro cs members rest h
    rw [membersFrom] at h
    rcases bind_eq_ok h with ⟨⟨m, afterMember⟩, hm, h⟩
    have hmore : ∀ other ∈ m :: done, p other.2 := by
      rw [List.forall_mem_cons]
      exact ⟨gives_member hitem cs m afterMember hm, hdone⟩
    simp only [] at h
    split at h
    · exact absurd h stop_ne_ok
    split at h
    · rcases eq_of_ok_pair h with ⟨rfl, rfl⟩
      exact fun other hother => hmore other (List.mem_reverse.mp hother)
    split at h
    · split at h
      · exact absurd h stop_ne_ok
      split at h
      · exact ih (m :: done) hmore _ members rest h
      split at h
      · exact absurd h stop_ne_ok
      · exact absurd h stop_ne_ok
    · exact absurd h stop_ne_ok

theorem gives_members {p : Value → Prop} {item : Scan Value} (hitem : Gives item p)
    (bound : Nat) : Gives (members bound item) fun members => ∀ m ∈ members, p m.2 := by
  intro cs held rest h
  unfold members at h
  split at h
  · exact absurd h stop_ne_ok
  split at h
  · rcases eq_of_ok_pair h with ⟨rfl, rfl⟩
    exact List.forall_mem_nil _
  split at h
  · exact gives_membersFrom hitem bound [] (List.forall_mem_nil _) _ held rest h
  · exact absurd h stop_ne_ok

/-! ## Values -/

/-- The three things that a reader can come to: a value without brackets, a list
    and an object. -/
inductive Comes (bound : Nat) (inner : Option (Scan Value)) (cs rest : List Char) : Value → Prop where
  | scalar (v : Value) (hv : v.Given 0) : Comes bound inner cs rest v
  | array (item : Scan Value) (tail : List Char) (values : List Value) (hinner : inner = some item)
    (hopen : skipBlank cs = '[' :: tail) (hvalues : items bound item tail = .ok (values, rest)) :
    Comes bound inner cs rest (.array values)
  | object (item : Scan Value) (tail : List Char) (written : List (String × Value))
    (hinner : inner = some item) (hopen : skipBlank cs = '\x7b' :: tail)
    (hwritten : members bound item tail = .ok (written, rest)) :
    Comes bound inner cs rest (.ofMembers written)

theorem comes_of_valueWith (bound : Nat) (inner : Option (Scan Value)) (cs rest : List Char)
    (v : Value) (h : valueWith bound inner cs = .ok (v, rest)) : Comes bound inner cs rest v := by
  unfold valueWith at h
  split at h
  · exact absurd h stop_ne_ok
  next c tail hcs =>
  -- The first character tells which reader goes on.
  split at h
  · rcases bind_eq_ok h with ⟨_, _, h⟩
    rcases eq_of_ok_pair h with ⟨rfl, rfl⟩
    exact .scalar _ (Value.given_null 0)
  split at h
  · rcases bind_eq_ok h with ⟨_, _, h⟩
    rcases eq_of_ok_pair h with ⟨rfl, rfl⟩
    exact .scalar _ (Value.given_bool 0 true)
  split at h
  · rcases bind_eq_ok h with ⟨_, _, h⟩
    rcases eq_of_ok_pair h with ⟨rfl, rfl⟩
    exact .scalar _ (Value.given_bool 0 false)
  split at h
  · refine .scalar v (gives_map (fun cs n rest hn => ?_) _ v rest h)
    exact Value.given_number 0 n (gives_number true cs n rest hn)
  split at h
  · refine .scalar v (gives_map (fun cs n rest hn => ?_) _ v rest h)
    exact Value.given_number 0 n (gives_number false cs n rest hn)
  split at h
  · exact .scalar v (gives_map (fun _ s _ _ => Value.given_string 0 s) _ v rest h)
  split at h
  · next hopen =>
    split at h
    · exact absurd h stop_ne_ok
    next item =>
    rcases bind_eq_ok h with ⟨⟨values, afterItems⟩, hvalues, h⟩
    rcases eq_of_ok_pair h with ⟨rfl, rfl⟩
    exact .array item tail values rfl (by rw [hcs, hopen]) hvalues
  split at h
  · next hopen =>
    split at h
    · exact absurd h stop_ne_ok
    next item =>
    rcases bind_eq_ok h with ⟨⟨written, afterMembers⟩, hwritten, h⟩
    rcases eq_of_ok_pair h with ⟨rfl, rfl⟩
    exact .object item tail written rfl (by rw [hcs, hopen]) hwritten
  · exact absurd h stop_ne_ok

/-- A value is given by a reader that goes one bracket deeper than the reader of
    what is inside. -/
theorem gives_valueWith (bound limit : Nat) (inner : Option (Scan Value))
    (hinner : ∀ item, inner = some item → ∃ less, limit = less + 1 ∧ Gives item (Value.Given less)) :
    Gives (valueWith bound inner) (Value.Given limit) := by
  intro cs v rest h
  cases comes_of_valueWith bound inner cs rest v h with
  | scalar _ hv => exact hv.mono (Nat.zero_le limit)
  | array item tail values hitem _ hvalues =>
    rcases hinner item hitem with ⟨less, rfl, hless⟩
    exact (Value.given_array_iff less values).mpr (gives_items hless bound tail values rest hvalues)
  | object item tail written hitem _ hwritten =>
    rcases hinner item hitem with ⟨less, rfl, hless⟩
    -- Putting the members in order makes no new ones.
    refine (Value.given_object_iff less _).mpr ⟨pairwise_orderMembers written, fun m hm => ?_⟩
    exact gives_members hless bound tail written rest hwritten m
      (mem_of_mem_orderMembers written m hm)

/-- Whatever is read lies within the nesting limit of its reader. -/
theorem gives_value (bound limit : Nat) : Gives (value bound limit) (Value.Given limit) := by
  induction limit with
  | zero => exact gives_valueWith bound 0 none fun item h => absurd h (Option.some_ne_none item).symm
  | succ limit ih =>
    refine gives_valueWith bound (limit + 1) (some (value bound limit)) fun item h => ?_
    rw [← Option.some.inj h]
    exact ⟨limit, rfl, ih⟩

/-! ## Whole texts -/

/-- A text is read as a value with nothing but blanks behind it. -/
theorem value_of_parseChars (cs : List Char) (v : Value) (h : parseChars cs = .ok v) :
    ∃ rest, value cs.length depthLimit cs = .ok (v, rest) ∧ skipBlank rest = [] := by
  unfold parseChars at h
  split at h
  · next w hwhole =>
    rw [Except.ok.injEq] at h
    rcases bind_eq_ok hwhole with ⟨⟨u, rest⟩, hu, hend⟩
    simp only [] at hend
    split at hend
    · next hblank =>
      rw [Except.ok.injEq] at hend
      exact ⟨rest, by rw [hu, hend, h], hblank⟩
    · exact absurd hend stop_ne_ok
  · exact absurd h (by simp only [reduceCtorEq, not_false_eq_true])

/-- What a text is read as. -/
theorem given_of_parseChars (cs : List Char) (v : Value) (h : parseChars cs = .ok v) :
    v.Given depthLimit := by
  rcases value_of_parseChars cs v h with ⟨rest, hv, _⟩
  exact gives_value cs.length depthLimit cs v rest hv

/-- The members of the object that a text consists of, in the order of the text,
    and with all those of one name. -/
def writtenMembers? (cs : List Char) : Option (List (String × Value)) :=
  match skipBlank cs with
  | [] => none
  | c :: tail =>
    if c = '\x7b' then
      match members cs.length (value cs.length (depthLimit - 1)) tail with
      | .ok (written, rest) => if (skipBlank rest).isEmpty then some written else none
      | .error _ => none
    else none

/-- A member by its name, in the order of a text; of more of one name the last. -/
def lastMember? (written : List (String × Value)) (name : String) : Option Value :=
  written.reverse.lookup name

/-- Members that were put in order are looked up as the last of their name. -/
theorem lookup_orderMembers_eq (written : List (String × Value)) :
    (fun name => (orderMembers written).lookup name) = lastMember? written :=
  funext fun name => lookup_orderMembers name written

/-- A text that is read as an object writes its members out. -/
theorem writtenMembers?_of_parseChars (cs : List Char) (held : List (String × Value))
    (h : parseChars cs = .ok (.object held)) :
    ∃ written, writtenMembers? cs = some written ∧ held = orderMembers written := by
  rcases value_of_parseChars cs _ h with ⟨rest, hvalue, hblank⟩
  generalize hobject : Value.object held = v at hvalue
  have hcomes := comes_of_valueWith cs.length (some (value cs.length (depthLimit - 1))) cs rest v
    hvalue
  cases hcomes with
  | scalar _ hv =>
    rw [← hobject] at hv
    exact absurd hv.shallow (Nat.not_succ_le_zero _)
  | array => exact absurd hobject (by simp only [reduceCtorEq, not_false_eq_true])
  | object item tail written hitem hopen hwritten =>
    rw [← Option.some.inj hitem] at hwritten
    refine ⟨written, ?_, Value.object.inj hobject⟩
    unfold writtenMembers?
    simp only [hopen, if_true, hwritten, hblank, List.isEmpty_nil]

end Json

end SourceMarkers
