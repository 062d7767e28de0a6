import SourceMarkers.Json.Value

/-!
# Members in order

What `insertMember` and `orderMembers` make of a list of members, and the
values that a reader can give back.

A member that is looked up after an insertion is the inserted one or the one
that was there before. This does not need the list to be in order, so the
members of `ofMembers` are found without working out where each of them
stands. That they are in order is a second fact, and with both together the
order of a document never has to be computed in a proof.

`Value.Readable` collects what a written value needs to be read back whole:
only whole numbers of 64 bits, members in order, and a bound on the nesting.
It is stated once here for lists and objects, and each document is shown to
meet it from its parts.

## Main definitions

* `Value.Readable`: A value that reads back within a nesting limit.

## Theorems

* `lookup_insertMember`, `lookup_orderMembers`: Looking up a member.
* `pairwise_orderMembers`: Members are put in order.
* `orderMembers_eq_self`: Members in order are left alone.
* `Value.ofMembers_pair`: Two members in either order.
* `Value.readable_array_iff`, `Value.readable_object_iff`: A list or an object
  is readable when its parts are.
* `Value.readable_ofMembers`: So is an object that is put together.
-/

namespace SourceMarkers

namespace Json

variable {α : Type}

/-! ## Looking up -/

/-- Looking up goes past the members with other names. -/
theorem lookup_cons_eq_if (name wanted : String) (value : α) (rest : List (String × α)) :
    ((name, value) :: rest).lookup wanted =
      if wanted = name then some value else rest.lookup wanted := by
  rw [List.lookup_cons]
  by_cases h : wanted = name
  · rw [if_pos h, beq_iff_eq.mpr h]
  · rw [if_neg h, beq_eq_false_iff_ne.mpr h]

theorem lookup_insertMember (name wanted : String) (value : α) (members : List (String × α)) :
    (insertMember name value members).lookup wanted =
      if wanted = name then some value else members.lookup wanted := by
  induction members with
  | nil => exact lookup_cons_eq_if name wanted value []
  | cons member rest ih =>
    rcases member with ⟨other, held⟩
    -- The member replaces one of its name, goes in front, or goes further on.
    rw [insertMember]
    by_cases hname : name = other
    · rw [if_pos hname, hname, lookup_cons_eq_if, lookup_cons_eq_if]
      by_cases hwanted : wanted = other
      · rw [if_pos hwanted, if_pos hwanted]
      · rw [if_neg hwanted, if_neg hwanted, if_neg hwanted]
    rw [if_neg hname]
    by_cases hlt : name < other
    · rw [if_pos hlt, lookup_cons_eq_if]
    · rw [if_neg hlt, lookup_cons_eq_if, lookup_cons_eq_if, ih]
      by_cases hwanted : wanted = other
      · rw [if_pos hwanted, if_pos hwanted, if_neg fun h => hname (h.symm.trans hwanted)]
      · rw [if_neg hwanted, if_neg hwanted]

/-- Of the members with one name the last is found. -/
theorem lookup_orderMembers (wanted : String) (members : List (String × α)) :
    (orderMembers members).lookup wanted = members.reverse.lookup wanted := by
  -- A member that was put in later is found before those put in earlier.
  have hfold : ∀ ordered : List (String × α),
      (members.foldl (fun ordered member => insertMember member.1 member.2 ordered)
        ordered).lookup wanted =
        (members.reverse.lookup wanted).or (ordered.lookup wanted) := by
    induction members with
    | nil => intro ordered; rfl
    | cons member rest ih =>
      intro ordered
      rcases member with ⟨name, value⟩
      rw [List.foldl_cons, ih, lookup_insertMember, List.reverse_cons, List.lookup_append,
        lookup_cons_eq_if, List.lookup_nil, Option.or_assoc]
      by_cases hwanted : wanted = name
      · rw [if_pos hwanted, if_pos hwanted, Option.some_or]
      · rw [if_neg hwanted, if_neg hwanted, Option.none_or]
  rw [orderMembers, hfold, List.lookup_nil, Option.or_none]

/-- The member of an object that is put together. -/
theorem Value.member?_ofMembers (wanted : String) (members : List (String × Value)) :
    (Value.ofMembers members).member? wanted = members.reverse.lookup wanted :=
  lookup_orderMembers wanted members

/-! ## Order -/

theorem mem_insertMember (name : String) (value : α) (members : List (String × α))
    (member : String × α) (h : member ∈ insertMember name value members) :
    member = (name, value) ∨ member ∈ members := by
  induction members with
  | nil => exact Or.inl (List.mem_singleton.mp h)
  | cons first rest ih =>
    rcases first with ⟨other, held⟩
    rw [insertMember] at h
    split at h
    · rcases List.mem_cons.mp h with h | h
      · exact Or.inl h
      · exact Or.inr (List.mem_cons_of_mem _ h)
    split at h
    · exact List.mem_cons.mp h
    · rcases List.mem_cons.mp h with h | h
      · exact Or.inr (h ▸ List.mem_cons_self)
      · exact (ih h).imp_right (List.mem_cons_of_mem _)

theorem pairwise_insertMember (name : String) (value : α) (members : List (String × α))
    (h : (members.map Prod.fst).Pairwise (· < ·)) :
    ((insertMember name value members).map Prod.fst).Pairwise (· < ·) := by
  induction members with
  | nil => exact List.pairwise_singleton _ _
  | cons first rest ih =>
    rcases first with ⟨other, held⟩
    rw [List.map_cons, List.pairwise_cons] at h
    rw [insertMember]
    by_cases hname : name = other
    · rw [if_pos hname, List.map_cons, List.pairwise_cons, hname]
      exact h
    rw [if_neg hname]
    by_cases hlt : name < other
    · rw [if_pos hlt, List.map_cons, List.map_cons, List.pairwise_cons, List.pairwise_cons]
      refine ⟨fun later hmem => ?_, h⟩
      rcases List.mem_cons.mp hmem with hlater | hlater
      · exact hlater ▸ hlt
      · exact String.lt_trans hlt (h.1 later hlater)
    · rw [if_neg hlt, List.map_cons, List.pairwise_cons]
      refine ⟨fun later hmem => ?_, ih h.2⟩
      -- Neither equal nor smaller, the new name is greater.
      have hgt : other < name := by
        rw [← String.not_le]
        exact fun hle => hname (String.le_antisymm hle (String.not_lt.mp hlt))
      rcases List.mem_map.mp hmem with ⟨member, hmember, rfl⟩
      rcases mem_insertMember name value rest member hmember with rfl | hrest
      · exact hgt
      · exact h.1 _ (List.mem_map_of_mem hrest)

/-- What holds of a list of members through every insertion holds of the
    members in order. -/
theorem orderMembers_induction (holds : List (String × α) → Prop) (members : List (String × α))
    (hnil : holds [])
    (hinsert : ∀ member ∈ members, ∀ ordered, holds ordered →
      holds (insertMember member.1 member.2 ordered)) : holds (orderMembers members) := by
  have hfold : ∀ ordered, holds ordered →
      holds (members.foldl (fun ordered member => insertMember member.1 member.2 ordered)
        ordered) := by
    induction members with
    | nil => intro ordered h; exact h
    | cons member rest ih =>
      intro ordered h
      exact ih (fun m hm => hinsert m (List.mem_cons_of_mem _ hm)) _
        (hinsert member List.mem_cons_self ordered h)
  exact hfold [] hnil

/-- Members are put in order, each name once. -/
theorem pairwise_orderMembers (members : List (String × α)) :
    ((orderMembers members).map Prod.fst).Pairwise (· < ·) :=
  orderMembers_induction (fun ordered => (ordered.map Prod.fst).Pairwise (· < ·)) members
    List.Pairwise.nil fun member _ ordered h => pairwise_insertMember member.1 member.2 ordered h

/-- Ordering makes no new members. -/
theorem mem_of_mem_orderMembers (members : List (String × α)) (member : String × α)
    (h : member ∈ orderMembers members) : member ∈ members := by
  revert h
  refine orderMembers_induction (fun ordered => member ∈ ordered → member ∈ members) members
    (fun h => absurd h List.not_mem_nil) fun first hfirst ordered ih h => ?_
  rcases mem_insertMember first.1 first.2 ordered member h with heq | hmem
  · exact heq ▸ hfirst
  · exact ih hmem

/-- A member with the greatest name goes to the end. -/
theorem insertMember_last (name : String) (value : α) (members : List (String × α))
    (h : ∀ other ∈ members.map Prod.fst, other < name) :
    insertMember name value members = members ++ [(name, value)] := by
  induction members with
  | nil => rfl
  | cons first rest ih =>
    rcases first with ⟨other, held⟩
    have hother : other < name := h other List.mem_cons_self
    rw [insertMember, if_neg (String.ne_of_lt hother).symm, if_neg (String.lt_asymm hother),
      ih fun later hlater => h later (List.mem_cons_of_mem _ hlater), List.cons_append]

/-- Members in order are left alone. -/
theorem orderMembers_eq_self (members : List (String × α))
    (h : (members.map Prod.fst).Pairwise (· < ·)) : orderMembers members = members := by
  have hfold : ∀ ordered : List (String × α),
      ((ordered ++ members).map Prod.fst).Pairwise (· < ·) →
      members.foldl (fun ordered member => insertMember member.1 member.2 ordered) ordered =
        ordered ++ members := by
    clear h
    induction members with
    | nil => intro ordered _; rw [List.foldl_nil, List.append_nil]
    | cons member rest ih =>
      intro ordered h
      -- Each member comes behind all that were put in before it.
      have hlast : ∀ other ∈ ordered.map Prod.fst, other < member.1 := by
        intro other hother
        rw [List.map_append, List.pairwise_append] at h
        exact h.2.2 other hother member.1 List.mem_cons_self
      rw [List.foldl_cons, insertMember_last member.1 member.2 ordered hlast, ih, List.append_assoc,
        List.singleton_append]
      rwa [List.append_assoc, List.singleton_append]
  exact hfold [] (by rwa [List.nil_append])

/-- Two members are put in the order of their names. -/
theorem Value.ofMembers_pair (a b : String) (v w : Value) (h : a < b) :
    Value.ofMembers [(a, v), (b, w)] = .object [(a, v), (b, w)] ∧
      Value.ofMembers [(b, w), (a, v)] = .object [(a, v), (b, w)] := by
  have hne : a ≠ b := String.ne_of_lt h
  constructor
  · exact congrArg Value.object (orderMembers_eq_self _ (List.pairwise_pair.mpr h))
  · simp only [Value.ofMembers, orderMembers, List.foldl_cons, List.foldl_nil, insertMember,
      if_neg hne, if_pos h]

/-! ## Values that read back -/

namespace Value

theorem orderedItems_iff (items : List Value) : OrderedItems items ↔ ∀ v ∈ items, v.Ordered := by
  induction items with
  | nil => simp only [OrderedItems, List.not_mem_nil, false_implies, implies_true]
  | cons v rest ih => rw [OrderedItems, ih, List.forall_mem_cons]

theorem orderedMembers_iff (members : List (String × Value)) :
    OrderedMembers members ↔ ∀ m ∈ members, m.2.Ordered := by
  induction members with
  | nil => simp only [OrderedMembers, List.not_mem_nil, false_implies, implies_true]
  | cons m rest ih => rw [OrderedMembers, ih, List.forall_mem_cons]

theorem wholeItems_iff (items : List Value) : WholeItems items ↔ ∀ v ∈ items, v.Whole := by
  induction items with
  | nil => simp only [WholeItems, List.not_mem_nil, false_implies, implies_true]
  | cons v rest ih => rw [WholeItems, ih, List.forall_mem_cons]

theorem wholeMembers_iff (members : List (String × Value)) :
    WholeMembers members ↔ ∀ m ∈ members, m.2.Whole := by
  induction members with
  | nil => simp only [WholeMembers, List.not_mem_nil, false_implies, implies_true]
  | cons m rest ih => rw [WholeMembers, ih, List.forall_mem_cons]

theorem depthItems_le_iff (items : List Value) (limit : Nat) :
    depthItems items ≤ limit ↔ ∀ v ∈ items, v.depth ≤ limit := by
  induction items with
  | nil => simp only [depthItems, Nat.zero_le, List.not_mem_nil, false_implies, implies_true]
  | cons v rest ih => rw [depthItems, Nat.max_le, ih, List.forall_mem_cons]

theorem depthMembers_le_iff (members : List (String × Value)) (limit : Nat) :
    depthMembers members ≤ limit ↔ ∀ m ∈ members, m.2.depth ≤ limit := by
  induction members with
  | nil => simp only [depthMembers, Nat.zero_le, List.not_mem_nil, false_implies, implies_true]
  | cons m rest ih => rw [depthMembers, Nat.max_le, ih, List.forall_mem_cons]

/-- A value that a reader gives back when it may open `limit` brackets inside
    each other. -/
structure Readable (limit : Nat) (v : Value) : Prop where
  whole : v.Whole
  ordered : v.Ordered
  shallow : v.depth ≤ limit

/-- A value that reads back within a limit does so within a greater one. -/
theorem Readable.mono {limit more : Nat} {v : Value} (h : v.Readable limit) (hle : limit ≤ more) :
    v.Readable more :=
  ⟨h.whole, h.ordered, Nat.le_trans h.shallow hle⟩

theorem readable_null (limit : Nat) : Value.null.Readable limit :=
  ⟨trivial, trivial, Nat.zero_le limit⟩

theorem readable_bool (limit : Nat) (b : Bool) : (Value.bool b).Readable limit :=
  ⟨trivial, trivial, Nat.zero_le limit⟩

theorem readable_string (limit : Nat) (s : String) : (Value.string s).Readable limit :=
  ⟨trivial, trivial, Nat.zero_le limit⟩

theorem readable_ofString? (limit : Nat) (s? : Option String) : (ofString? s?).Readable limit := by
  cases s? with
  | none => exact readable_null limit
  | some s => exact readable_string limit s

theorem readable_ofInt (limit : Nat) (n : Int) (h : FitsWhole n) : (ofInt n).Readable limit :=
  ⟨h, trivial, Nat.zero_le limit⟩

/-- A list is readable when its items are, with one bracket less. -/
theorem readable_array_iff (limit : Nat) (items : List Value) :
    (Value.array items).Readable (limit + 1) ↔ ∀ v ∈ items, v.Readable limit := by
  constructor
  · rintro ⟨hwhole, hordered, hshallow⟩ v hv
    rw [depth, Nat.add_le_add_iff_right, depthItems_le_iff] at hshallow
    exact ⟨(wholeItems_iff items).mp hwhole v hv, (orderedItems_iff items).mp hordered v hv,
      hshallow v hv⟩
  · intro h
    refine ⟨(wholeItems_iff items).mpr fun v hv => (h v hv).whole,
      (orderedItems_iff items).mpr fun v hv => (h v hv).ordered, ?_⟩
    rw [depth, Nat.add_le_add_iff_right, depthItems_le_iff]
    exact fun v hv => (h v hv).shallow

/-- An object is readable when its members are in order and their values are
    readable, with one bracket less. -/
theorem readable_object_iff (limit : Nat) (members : List (String × Value)) :
    (Value.object members).Readable (limit + 1) ↔
      (members.map Prod.fst).Pairwise (· < ·) ∧ ∀ m ∈ members, m.2.Readable limit := by
  constructor
  · rintro ⟨hwhole, hordered, hshallow⟩
    rw [depth, Nat.add_le_add_iff_right, depthMembers_le_iff] at hshallow
    exact ⟨hordered.1, fun m hm => ⟨(wholeMembers_iff members).mp hwhole m hm,
      (orderedMembers_iff members).mp hordered.2 m hm, hshallow m hm⟩⟩
  · rintro ⟨hsorted, h⟩
    refine ⟨(wholeMembers_iff members).mpr fun m hm => (h m hm).whole,
      ⟨hsorted, (orderedMembers_iff members).mpr fun m hm => (h m hm).ordered⟩, ?_⟩
    rw [depth, Nat.add_le_add_iff_right, depthMembers_le_iff]
    exact fun m hm => (h m hm).shallow

/-- An object that is put together of readable values is readable. -/
theorem readable_ofMembers (limit : Nat) (members : List (String × Value))
    (h : ∀ m ∈ members, m.2.Readable limit) : (ofMembers members).Readable (limit + 1) :=
  (readable_object_iff limit (orderMembers members)).mpr ⟨pairwise_orderMembers members,
    fun m hm => h m (mem_of_mem_orderMembers members m hm)⟩

end Value

end Json

end SourceMarkers
