import SourceMarkers.Proofs.Path.Pieces

/-!
# Joining and stripping

How joining a path to a base and taking the base off again go together.

A path is read by its first piece: nothing before the first slash is a root, a
single dot stays, and anything else belongs to the body. `Path.shape` says this
once, and the lemmas named after a lead go back from pieces to a path. With
them, joining is seen on pieces: the joined path has the pieces of the base,
but for an empty one at the end, and then those of the rest.

Taking a base off leaves pieces behind which only their ends are trimmed. So a
base that was joined to a path is taken off to give the trimmed path, and the
rest that is left is joined again to the same components. A base without
components is a case of its own: every path is below it, and joining to it
changes nothing.

## Main definitions

* `Path.tidy`: The path without the idle pieces at its end.

## Theorems

* `Path.shape`: The lead and the body of a path from its first piece.
* `Path.components_join`: The components of a joined path.
* `Path.stripPrefix?_join`: Taking off what was joined.
* `Path.same_join_of_stripPrefix?`: Joining what was left gives the same path.
* `Path.stripPrefix?_isSome_iff`: A base can be taken off when its components
  come first.
* `Path.stripPrefix?_join_addSlash`: One more slash at the end makes no
  difference.
* `Path.isText_of_stripPrefix?`: What is left of a text is a text.
-/

namespace SourceMarkers

namespace Path

/-! ## Leads and bodies -/

/-- A path of several pieces whose first is empty starts at the root. -/
theorem lead_body_of_root (p : Path) (rest : List PathPiece) (h : p.pieces = [] :: rest)
    (hrest : rest ≠ []) : p.lead = .root ∧ p.body = rest := by
  have habsolute : p.isAbsolute = true := by
    have hback := ofPieces_pieces p
    rw [h] at hback
    rw [← hback, isAbsolute, ofPieces]
    cases rest with
    | nil => exact absurd rfl hrest
    | cons q more => rw [List.intercalate_cons_cons]; rfl
  have hlead : p.lead = .root := by rw [lead, habsolute, if_pos rfl]
  -- The empty piece in front of the first slash is the lead.
  refine ⟨hlead, ?_⟩
  rw [body, hlead, h]
  rfl

/-- A path whose first piece is not empty does not start at the root. -/
theorem isAbsolute_of_first (p : Path) (first : PathPiece) (rest : List PathPiece)
    (h : p.pieces = first :: rest) (hfirst : first ≠ []) : p.isAbsolute = false := by
  have hslash := slash_not_mem_of_mem_pieces p first (by rw [h]; exact List.mem_cons_self)
  have hback := ofPieces_pieces p
  rw [h] at hback
  rw [← hback, isAbsolute, ofPieces]
  cases first with
  | nil => exact absurd rfl hfirst
  | cons b more =>
    -- The path starts with the first octet of that piece, which is no slash.
    have hb : b ≠ slash := fun heq => hslash (heq ▸ List.mem_cons_self)
    have hhead : ([slash].intercalate ((b :: more) :: rest)).head? = some b := by
      cases rest with
      | nil => rw [List.intercalate_singleton]; rfl
      | cons q others => rw [List.intercalate_cons_cons]; rfl
    rw [hhead, beq_eq_false_iff_ne]
    exact fun heq => hb (Option.some.inj heq)

theorem lead_body_of_here (p : Path) (rest : List PathPiece) (h : p.pieces = [dot] :: rest) :
    p.lead = .here ∧ p.body = rest := by
  have hrelative := isAbsolute_of_first p [dot] rest h (List.cons_ne_nil _ _)
  have hlead : p.lead = .here := by
    rw [lead, hrelative, if_neg (by decide), h, List.head?_cons, if_pos rfl]
  refine ⟨hlead, ?_⟩
  rw [body, hlead, h]
  rfl

theorem lead_body_of_name (p : Path) (first : PathPiece) (rest : List PathPiece)
    (h : p.pieces = first :: rest) (hfirst : isIdle first = false) :
    p.lead = .nothing ∧ p.body = first :: rest := by
  have hnil : first ≠ [] := by rintro rfl; exact absurd hfirst (by decide)
  have hdot : first ≠ [dot] := by rintro rfl; exact absurd hfirst (by decide)
  have hrelative := isAbsolute_of_first p first rest h hnil
  have hlead : p.lead = .nothing := by
    rw [lead, hrelative, if_neg (by decide), h, List.head?_cons,
      if_neg fun heq => hdot (Option.some.inj heq)]
  refine ⟨hlead, ?_⟩
  rw [body, hlead, h]

theorem lead_body_of_empty (p : Path) (h : p.octets = []) :
    p.lead = .nothing ∧ p.body = [[]] := by
  have hlead : p.lead = .nothing := by
    rw [lead, isAbsolute, h, if_neg (by decide), pieces_of_octets_nil p h]
    rfl
  refine ⟨hlead, ?_⟩
  rw [body, hlead, pieces_of_octets_nil p h]

/-- The four shapes of a path, told apart by its first piece. -/
inductive Shape (p : Path) : Prop where
  | empty (hoctets : p.octets = []) (hlead : p.lead = .nothing) (hbody : p.body = [[]])
  | root (hne : p.body ≠ []) (hpieces : p.pieces = [] :: p.body) (hlead : p.lead = .root)
  | here (hpieces : p.pieces = [dot] :: p.body) (hlead : p.lead = .here)
  | name (first : PathPiece) (rest : List PathPiece) (hfirst : isIdle first = false)
      (hpieces : p.pieces = first :: rest) (hlead : p.lead = .nothing)
      (hbody : p.body = first :: rest)

theorem shape (p : Path) : Shape p := by
  -- An empty first piece with nothing behind it is the empty path, not the root.
  cases hpieces : p.pieces with
  | nil => exact absurd hpieces p.pieces_ne_nil
  | cons first rest =>
    by_cases hempty : first = []
    · rw [hempty] at hpieces
      by_cases hrest : rest = []
      · rw [hrest] at hpieces
        have hoctets := octets_eq_nil_of_pieces p hpieces
        rcases lead_body_of_empty p hoctets with ⟨hlead, hbody⟩
        exact .empty hoctets hlead hbody
      · rcases lead_body_of_root p rest hpieces hrest with ⟨hlead, hbody⟩
        exact .root (hbody ▸ hrest) (hbody ▸ hpieces) hlead
    by_cases hdot : first = [dot]
    · rw [hdot] at hpieces
      rcases lead_body_of_here p rest hpieces with ⟨hlead, hbody⟩
      exact .here (hbody ▸ hpieces) hlead
    · have hfirst : isIdle first = false := by
        simp only [isIdle, Bool.or_eq_false_iff, beq_eq_false_iff_ne]
        exact ⟨hempty, hdot⟩
      rcases lead_body_of_name p first rest hpieces hfirst with ⟨hlead, hbody⟩
      exact .name first rest hfirst hpieces hlead hbody

theorem mem_pieces_of_mem_body (p : Path) (x : PathPiece) (h : x ∈ p.body) : x ∈ p.pieces := by
  rcases p.shape with ⟨hoctets, _, hbody⟩ | ⟨_, hpieces, _⟩ | ⟨hpieces, _⟩ |
    ⟨first, rest, _, hpieces, _, hbody⟩
  · rw [pieces_of_octets_nil p hoctets]; rwa [hbody] at h
  · rw [hpieces]; exact List.mem_cons_of_mem _ h
  · rw [hpieces]; exact List.mem_cons_of_mem _ h
  · rw [hpieces]; rwa [hbody] at h

/-- Only the empty path has no components. -/
theorem components_eq_nil_iff (p : Path) : p.components = [] ↔ p.octets = [] := by
  rw [components]
  rcases p.shape with ⟨hoctets, hlead, hbody⟩ | ⟨hne, hpieces, hlead⟩ | ⟨hpieces, hlead⟩ |
    ⟨first, rest, hfirst, hpieces, hlead, hbody⟩
  · rw [hlead, hbody]
    exact ⟨fun _ => hoctets, fun _ => rfl⟩
  · rw [hlead]
    refine ⟨fun h => absurd h (List.cons_ne_nil _ _), fun h => ?_⟩
    rw [pieces_of_octets_nil p h, List.cons.injEq] at hpieces
    exact absurd hpieces.2.symm hne
  · rw [hlead]
    refine ⟨fun h => absurd h (List.cons_ne_nil _ _), fun h => ?_⟩
    rw [pieces_of_octets_nil p h, List.cons.injEq] at hpieces
    exact absurd hpieces.1 (by decide)
  · -- A name at the front is a component.
    have hsome : component? first ≠ none := by
      rw [Ne, component?_eq_none_iff, hfirst]
      decide
    rcases Option.ne_none_iff_exists'.mp hsome with ⟨c, hc⟩
    rw [hlead, hbody, List.filterMap_cons_some hc]
    refine ⟨fun h => absurd h (List.cons_ne_nil _ _), fun h => ?_⟩
    rw [pieces_of_octets_nil p h, List.cons.injEq] at hpieces
    rw [← hpieces.1] at hfirst
    exact absurd hfirst (by decide)

/-! ## Joining -/

theorem join_of_empty (p q : Path) (h : p.octets = []) : p.join q = q := by
  rw [join]
  split
  · rfl
  · rw [if_pos (Or.inl h), h, List.nil_append]

/-- The pieces of a joined path: those of the base, but for an empty one at the
    end, and then those of the rest. -/
theorem pieces_join (p q : Path) (hp : p.octets ≠ []) (hq : q.isAbsolute = false) :
    ∃ front idle, front ≠ [] ∧ (∀ x ∈ idle, isIdle x = true) ∧ p.pieces = front ++ idle ∧
      (p.join q).pieces = front ++ q.pieces := by
  rw [join, if_neg (by rw [hq]; decide)]
  by_cases hlast : p.octets.getLast? = some slash
  · -- The base ends in a slash, behind which stands one empty piece.
    rw [if_pos (Or.inr hlast)]
    rcases List.getLast?_eq_some_iff.mp hlast with ⟨front, hfront⟩
    refine ⟨(Path.mk front).pieces, [[]], pieces_ne_nil _, ?_, ?_, ?_⟩
    · intro x hx
      rw [List.mem_singleton.mp hx]
      rfl
    · exact (congrArg pieces (congrArg Path.mk hfront)).trans (pieces_append_slash front [])
    · rw [hfront, List.append_assoc, List.singleton_append]
      exact pieces_append_slash front q.octets
  · -- A slash is put in between, and all pieces of the base stay.
    rw [if_neg fun h => h.elim hp hlast]
    refine ⟨p.pieces, [], pieces_ne_nil p, ?_, (List.append_nil _).symm, ?_⟩
    · exact fun x hx => absurd hx List.not_mem_nil
    · exact pieces_append_slash p.octets q.octets

/-- A joined path has the lead of its base, and its body goes on from the body
    of the base. -/
theorem lead_body_join (p q : Path) (hp : p.octets ≠ []) (hq : q.isAbsolute = false) :
    (p.join q).lead = p.lead ∧
      ∃ front idle, (∀ x ∈ idle, isIdle x = true) ∧ p.body = front ++ idle ∧
        (p.join q).body = front ++ q.pieces := by
  rcases pieces_join p q hp hq with ⟨front, idle, hne, hidle, hbase, hjoin⟩
  -- The first piece is that of the base, so the joined path has its shape.
  have hrest : ∀ ps : List PathPiece, ps ++ q.pieces ≠ [] := fun ps h =>
    pieces_ne_nil q (List.append_eq_nil_iff.mp h).2
  rcases p.shape with ⟨hoctets, _, _⟩ | ⟨_, hpieces, hlead⟩ | ⟨hpieces, hlead⟩ |
    ⟨first, rest, hfirst, hpieces, hlead, hbody⟩
  · exact absurd hoctets hp
  · rw [hpieces] at hbase
    cases front with
    | nil => exact absurd rfl hne
    | cons piece more =>
      rw [List.cons_append, List.cons.injEq] at hbase
      rw [List.cons_append, ← hbase.1] at hjoin
      rcases lead_body_of_root _ _ hjoin (hrest more) with ⟨hjoinLead, hjoinBody⟩
      exact ⟨hjoinLead.trans hlead.symm, more, idle, hidle, hbase.2, hjoinBody⟩
  · rw [hpieces] at hbase
    cases front with
    | nil => exact absurd rfl hne
    | cons piece more =>
      rw [List.cons_append, List.cons.injEq] at hbase
      rw [List.cons_append, ← hbase.1] at hjoin
      rcases lead_body_of_here _ _ hjoin with ⟨hjoinLead, hjoinBody⟩
      exact ⟨hjoinLead.trans hlead.symm, more, idle, hidle, hbase.2, hjoinBody⟩
  · cases front with
    | nil => exact absurd rfl hne
    | cons piece more =>
      have hpiece : first = piece := by
        rw [hpieces, List.cons_append, List.cons.injEq] at hbase
        exact hbase.1
      rw [List.cons_append, ← hpiece] at hjoin
      rcases lead_body_of_name _ first _ hjoin hfirst with ⟨hjoinLead, hjoinBody⟩
      refine ⟨hjoinLead.trans hlead.symm, piece :: more, idle, hidle, ?_, ?_⟩
      · rw [hbody, ← hpieces, hbase]
      · rw [hjoinBody, hpiece, List.cons_append]

/-- A joined path has the components of its base and then those of the rest. -/
theorem components_join (p q : Path) (hp : p.octets ≠ []) (hq : q.isAbsolute = false) :
    (p.join q).components = p.components ++ q.pieces.filterMap component? := by
  rcases lead_body_join p q hp hq with ⟨hlead, front, idle, hidle, hbase, hjoin⟩
  rw [components, components, hlead, hbase, hjoin, List.filterMap_append, List.filterMap_append,
    filterMap_idle idle hidle, List.append_nil, List.append_assoc]

/-! ## Dropping components -/

theorem dropComponents_nil (ps : List PathPiece) : dropComponents [] ps = some ps := by
  cases ps <;> rfl

/-- The components of pieces are dropped from in front of whatever follows the
    pieces. What is left over of them is idle. -/
theorem dropComponents_append (ps rest : List PathPiece) :
    ∃ idle, (∀ x ∈ idle, isIdle x = true) ∧
      dropComponents (ps.filterMap component?) (ps ++ rest) = some (idle ++ rest) := by
  induction ps with
  | nil => exact ⟨[], fun x hx => absurd hx List.not_mem_nil, dropComponents_nil rest⟩
  | cons p ps ih =>
    rcases ih with ⟨idle, hidle, hdrop⟩
    cases hp : component? p with
    | some d =>
      refine ⟨idle, hidle, ?_⟩
      rw [List.filterMap_cons_some hp, List.cons_append, dropComponents, hp]
      simp only [if_true]
      exact hdrop
    | none =>
      rw [List.filterMap_cons_none hp]
      -- An idle piece is passed over while there is a component to drop, and
      -- left where it is when there is none.
      cases hmore : ps.filterMap component? with
      | nil =>
        refine ⟨p :: ps, fun x hx => ?_, rfl⟩
        rcases List.mem_cons.mp hx with rfl | hx
        · exact (component?_eq_none_iff x).mp hp
        · exact (component?_eq_none_iff x).mp (List.filterMap_eq_nil_iff.mp hmore x hx)
      | cons c cs =>
        refine ⟨idle, hidle, ?_⟩
        rw [hmore] at hdrop
        rw [List.cons_append, dropComponents, hp]
        exact hdrop

/-- What is left when components are dropped: the end of the pieces, with the
    components behind the dropped ones. -/
theorem dropComponents_eq_some (cs : List Component) (ps rest : List PathPiece)
    (h : dropComponents cs ps = some rest) :
    ps.filterMap component? = cs ++ rest.filterMap component? ∧ rest <:+ ps := by
  induction ps generalizing cs with
  | nil =>
    cases cs with
    | nil =>
      rw [dropComponents, Option.some.injEq] at h
      rw [← h]
      exact ⟨rfl, List.suffix_rfl⟩
    | cons c cs => exact absurd h (by simp only [dropComponents, reduceCtorEq, not_false_eq_true])
  | cons p ps ih =>
    cases cs with
    | nil =>
      rw [dropComponents, Option.some.injEq] at h
      rw [← h]
      exact ⟨rfl, List.suffix_rfl⟩
    | cons c cs =>
      rw [dropComponents] at h
      cases hp : component? p with
      | none =>
        -- The piece is idle, and the components are still to be dropped.
        simp only [hp] at h
        rcases ih (c :: cs) h with ⟨hcomponents, hsuffix⟩
        refine ⟨?_, hsuffix.trans (List.suffix_cons p ps)⟩
        rw [List.filterMap_cons_none hp, hcomponents]
      | some d =>
        simp only [hp] at h
        -- The first component is dropped when it is the one that is asked for.
        by_cases hd : d = c
        · rw [if_pos hd] at h
          rcases ih cs h with ⟨hcomponents, hsuffix⟩
          refine ⟨?_, hsuffix.trans (List.suffix_cons p ps)⟩
          rw [List.filterMap_cons_some hp, hcomponents, hd, List.cons_append]
        · rw [if_neg hd] at h
          exact absurd h (by simp only [reduceCtorEq, not_false_eq_true])

/-- Components that come first can be dropped. -/
theorem dropComponents_isSome (cs : List Component) (ps : List PathPiece)
    (h : cs <+: ps.filterMap component?) : (dropComponents cs ps).isSome = true := by
  induction ps generalizing cs with
  | nil =>
    rw [List.prefix_nil.mp h]
    rfl
  | cons p ps ih =>
    cases cs with
    | nil => rfl
    | cons c cs =>
      rw [dropComponents]
      cases hp : component? p with
      | none =>
        rw [List.filterMap_cons_none hp] at h
        exact ih (c :: cs) h
      | some d =>
        rw [List.filterMap_cons_some hp, List.cons_prefix_cons] at h
        simp only [h.1, if_true]
        exact ih cs h.2

/-! ## Tidy paths -/

/-- The path without the idle pieces at its end. -/
def tidy (p : Path) : Path := ofLead p.lead (trimEnd p.body)

theorem lead_body_tidy (p : Path) :
    p.tidy.lead = p.lead ∧ trimEnd p.tidy.body = trimEnd p.body := by
  have hslash : ∀ x ∈ trimEnd p.body, slash ∉ x := fun x hx =>
    slash_not_mem_of_mem_pieces p x (mem_pieces_of_mem_body p x (mem_of_mem_trimEnd _ x hx))
  rw [tidy]
  -- Cut again, the tidy path has the pieces it was made of, and so its shape.
  rcases p.shape with ⟨hoctets, hlead, hbody⟩ | ⟨hne, hpieces, hlead⟩ | ⟨hpieces, hlead⟩ |
    ⟨first, rest, hfirst, hpieces, hlead, hbody⟩
  · rw [hlead, hbody]
    rcases lead_body_of_empty (ofLead .nothing (trimEnd [[]])) rfl with ⟨hl, hb⟩
    exact ⟨hl, by rw [hb]⟩
  · rw [hlead]
    cases htrim : trimEnd p.body with
    | nil =>
      -- Of the root alone, the empty piece behind it is left.
      have hcut : (ofLead .root []).pieces = [] :: [[]] :=
        pieces_ofPieces [[], []] (List.cons_ne_nil _ _) (by decide)
      rcases lead_body_of_root _ [[]] hcut (List.cons_ne_nil _ _) with ⟨hl, hb⟩
      exact ⟨hl, by rw [hb]; rfl⟩
    | cons q more =>
      rw [htrim] at hslash
      have hcut : (ofLead .root (q :: more)).pieces = [] :: q :: more := by
        refine pieces_ofPieces _ (List.cons_ne_nil _ _) fun x hx => ?_
        rcases List.mem_cons.mp hx with rfl | hx
        · exact List.not_mem_nil
        · exact hslash x hx
      rcases lead_body_of_root _ _ hcut (List.cons_ne_nil _ _) with ⟨hl, hb⟩
      exact ⟨hl, by rw [hb, ← htrim, trimEnd_trimEnd]⟩
  · rw [hlead]
    have hcut : (ofLead .here (trimEnd p.body)).pieces = [dot] :: trimEnd p.body := by
      refine pieces_ofPieces _ (List.cons_ne_nil _ _) fun x hx => ?_
      rcases List.mem_cons.mp hx with rfl | hx
      · decide
      · exact hslash x hx
    rcases lead_body_of_here _ _ hcut with ⟨hl, hb⟩
    exact ⟨hl, by rw [hb, trimEnd_trimEnd]⟩
  · rw [hlead]
    have htrim : trimEnd p.body = first :: trimEnd rest := by
      rw [hbody, trimEnd_cons first rest hfirst]
    rw [htrim] at hslash ⊢
    have hcut : (ofLead .nothing (first :: trimEnd rest)).pieces = first :: trimEnd rest :=
      pieces_ofPieces _ (List.cons_ne_nil _ _) hslash
    rcases lead_body_of_name _ first _ hcut hfirst with ⟨hl, hb⟩
    exact ⟨hl, by rw [hb, ← htrim, trimEnd_trimEnd]⟩

theorem tidy_tidy (p : Path) : p.tidy.tidy = p.tidy := by
  rcases lead_body_tidy p with ⟨hlead, hbody⟩
  rw [tidy, hlead, hbody, ← tidy]

theorem same_tidy (p : Path) : p.tidy.Same p := by
  rcases lead_body_tidy p with ⟨hlead, hbody⟩
  rw [Same, components, components, hlead, ← filterMap_trimEnd, hbody, filterMap_trimEnd]

/-- A slash at the end adds an empty piece to the body. -/
theorem lead_body_addSlash (p : Path) (h : p.octets ≠ []) :
    p.addSlash.lead = p.lead ∧ p.addSlash.body = p.body ++ [[]] := by
  have hcut := pieces_addSlash p
  rcases p.shape with ⟨hoctets, _, _⟩ | ⟨hne, hpieces, hlead⟩ | ⟨hpieces, hlead⟩ |
    ⟨first, rest, hfirst, hpieces, hlead, hbody⟩
  · exact absurd hoctets h
  · rw [hpieces, List.cons_append] at hcut
    rw [hlead]
    exact lead_body_of_root _ _ hcut (List.append_ne_nil_of_left_ne_nil hne _)
  · rw [hpieces, List.cons_append] at hcut
    rw [hlead]
    exact lead_body_of_here _ _ hcut
  · rw [hpieces, List.cons_append] at hcut
    rw [hlead, hbody]
    exact lead_body_of_name _ first _ hcut hfirst

theorem isIdle_of_mem_empty (x : PathPiece) (h : x ∈ ([[]] : List PathPiece)) :
    isIdle x = true := by
  rw [List.mem_singleton.mp h]
  rfl

theorem tidy_addSlash (p : Path) (h : p.octets ≠ []) : p.addSlash.tidy = p.tidy := by
  rcases lead_body_addSlash p h with ⟨hlead, hbody⟩
  rw [tidy, hlead, hbody, trimEnd_append_idle _ _ isIdle_of_mem_empty, tidy]

/-- A slash at the end makes no other path. -/
theorem same_addSlash (p : Path) (h : p.octets ≠ []) : p.addSlash.Same p := by
  rcases lead_body_addSlash p h with ⟨hlead, hbody⟩
  rw [Same, components, components, hlead, hbody, List.filterMap_append,
    filterMap_idle _ isIdle_of_mem_empty, List.append_nil]

/-- Nor does it make a relative path absolute. -/
theorem isAbsolute_addSlash (p : Path) (h : p.octets ≠ []) :
    p.addSlash.isAbsolute = p.isAbsolute := by
  rw [isAbsolute, isAbsolute, addSlash, List.head?_append_of_ne_nil _ h]

theorem octets_ne_nil_of_isAbsolute (p : Path) (h : p.isAbsolute = true) : p.octets ≠ [] := by
  intro hnil
  rw [isAbsolute, hnil] at h
  exact absurd h (by decide)

theorem isText_tidy (p : Path) (h : p.IsText) : p.tidy.IsText := by
  have hbody : ∀ x ∈ trimEnd p.body, ∃ cs, x = Utf8.encode cs := fun x hx =>
    isText_of_mem_pieces p h x (mem_pieces_of_mem_body p x (mem_of_mem_trimEnd _ x hx))
  rw [tidy]
  -- Whatever stands in front is a text, as are the pieces of the path.
  cases p.lead with
  | root =>
    refine isText_ofPieces _ fun x hx => ?_
    rcases List.mem_cons.mp hx with rfl | hx
    · exact ⟨[], rfl⟩
    split at hx
    · exact ⟨[], List.mem_singleton.mp hx⟩
    · exact hbody x hx
  | here =>
    refine isText_ofPieces _ fun x hx => ?_
    rcases List.mem_cons.mp hx with rfl | hx
    · exact ⟨['.'], rfl⟩
    · exact hbody x hx
  | nothing => exact isText_ofPieces _ hbody

/-! ## Stripping -/

/-- Every path is below the empty one. -/
theorem stripPrefix?_of_empty (p base : Path) (h : base.octets = []) :
    p.stripPrefix? base = some p.tidy := by
  rw [stripPrefix?, if_pos ((components_eq_nil_iff base).mpr h), tidy]

theorem stripPrefix?_of_ne (p base : Path) (h : base.octets ≠ []) :
    p.stripPrefix? base =
      if p.lead = base.lead then
        (dropComponents (base.body.filterMap component?) p.body).map fun rest =>
          ofPieces (trim rest)
      else none := by
  rw [stripPrefix?, if_neg fun hnil => h ((components_eq_nil_iff base).mp hnil)]

/-- A base that was joined is taken off again, and the rest is trimmed. -/
theorem stripPrefix?_join (base q : Path) (hbase : base.octets ≠ []) (hq : q.isAbsolute = false) :
    (base.join q).stripPrefix? base = some (ofPieces (trim q.pieces)) := by
  rcases lead_body_join base q hbase hq with ⟨hlead, front, idle, hidle, hbody, hjoin⟩
  -- What is left of the base is idle, and goes with the front of the rest.
  rcases dropComponents_append front q.pieces with ⟨left, hleft, hdrop⟩
  rw [stripPrefix?_of_ne _ _ hbase, if_pos hlead, hbody, List.filterMap_append,
    filterMap_idle idle hidle, List.append_nil, hjoin, hdrop, Option.map_some,
    trim_idle_append left _ hleft]

/-- Trimmed pieces make a relative path that is trimmed itself. -/
theorem ofPieces_trim (ps : List PathPiece) (h : ∀ x ∈ ps, slash ∉ x) :
    (ofPieces (trim ps)).isAbsolute = false ∧
      (ofPieces (trim ps)).pieces.filterMap component? = ps.filterMap component? ∧
      ofPieces (trim (ofPieces (trim ps)).pieces) = ofPieces (trim ps) := by
  rcases trim_eq_nil_or_cons ps with ⟨hnil, hall⟩ | ⟨p, rest, hp, htrim⟩
  · have hcut : (ofPieces []).pieces = [[]] := pieces_of_octets_nil _ rfl
    rw [hnil, hcut, filterMap_idle ps hall]
    exact ⟨rfl, rfl, rfl⟩
  · -- The first piece that is left is a name, so there is no root in front of it.
    have hcut : (ofPieces (trim ps)).pieces = trim ps :=
      pieces_ofPieces _ (by rw [htrim]; exact List.cons_ne_nil _ _) fun x hx =>
        h x (mem_of_mem_trim ps x hx)
    refine ⟨?_, by rw [hcut, filterMap_trim], by rw [hcut, trim_trim]⟩
    refine isAbsolute_of_first _ p (trimEnd rest) (hcut.trans htrim) ?_
    rintro rfl
    exact absurd hp (by decide)

/-- What is left when a base with components is taken off: a relative and
    trimmed path with the components behind those of the base. -/
theorem stripPrefix?_eq_some (p base r : Path) (hbase : base.octets ≠ [])
    (h : p.stripPrefix? base = some r) :
    r.isAbsolute = false ∧ ofPieces (trim r.pieces) = r ∧
      p.components = base.components ++ r.pieces.filterMap component? := by
  rw [stripPrefix?_of_ne p base hbase] at h
  by_cases hlead : p.lead = base.lead
  · rw [if_pos hlead, Option.map_eq_some_iff] at h
    rcases h with ⟨rest, hdrop, rfl⟩
    rcases dropComponents_eq_some _ _ _ hdrop with ⟨hcomponents, hsuffix⟩
    -- The pieces that are left are pieces of the path, so none has a slash in it.
    rcases ofPieces_trim rest fun x hx => slash_not_mem_of_mem_pieces p x
      (mem_pieces_of_mem_body p x (hsuffix.subset hx)) with ⟨hrelative, hinner, htrimmed⟩
    refine ⟨hrelative, htrimmed, ?_⟩
    rw [components, components, hlead, hcomponents, hinner, List.append_assoc]
  · rw [if_neg hlead] at h
    exact absurd h (by simp only [reduceCtorEq, not_false_eq_true])

/-- Joining the rest to the base gives the same path. -/
theorem same_join_of_stripPrefix? (p base r : Path) (h : p.stripPrefix? base = some r) :
    (base.join r).Same p := by
  by_cases hbase : base.octets = []
  · rw [stripPrefix?_of_empty p base hbase, Option.some.injEq] at h
    rw [join_of_empty base r hbase, ← h]
    exact same_tidy p
  · rcases stripPrefix?_eq_some p base r hbase h with ⟨hrelative, _, hcomponents⟩
    rw [Same, components_join base r hbase hrelative, hcomponents]

/-- What was left is left again when it is joined and the base taken off. -/
theorem stripPrefix?_join_of_stripPrefix? (p base r : Path) (h : p.stripPrefix? base = some r) :
    (base.join r).stripPrefix? base = some r := by
  by_cases hbase : base.octets = []
  · rw [stripPrefix?_of_empty p base hbase, Option.some.injEq] at h
    rw [join_of_empty base r hbase, stripPrefix?_of_empty r base hbase, ← h, tidy_tidy]
  · rcases stripPrefix?_eq_some p base r hbase h with ⟨hrelative, htrimmed, _⟩
    rw [stripPrefix?_join base r hbase hrelative, htrimmed]

/-- One more slash at the end of the rest makes no difference. -/
theorem stripPrefix?_join_addSlash (p base r : Path) (h : p.stripPrefix? base = some r)
    (hr : r.octets ≠ []) : (base.join r.addSlash).stripPrefix? base = some r := by
  by_cases hbase : base.octets = []
  · rw [stripPrefix?_of_empty p base hbase, Option.some.injEq] at h
    rw [join_of_empty base _ hbase, stripPrefix?_of_empty _ base hbase, tidy_addSlash r hr, ← h,
      tidy_tidy]
  · rcases stripPrefix?_eq_some p base r hbase h with ⟨hrelative, htrimmed, _⟩
    -- The rest is not empty, so the slash does not stand in front.
    have hslash : r.addSlash.isAbsolute = false := (isAbsolute_addSlash r hr).trans hrelative
    rw [stripPrefix?_join base _ hbase hslash, pieces_addSlash,
      trim_append_idle _ _ isIdle_of_mem_empty, htrimmed]

/-- Of a base itself nothing is left. -/
theorem stripPrefix?_self (base : Path) : base.stripPrefix? base = some ⟨[]⟩ := by
  by_cases hbase : base.octets = []
  · rw [stripPrefix?_of_empty base base hbase, tidy]
    rcases lead_body_of_empty base hbase with ⟨hlead, hbody⟩
    rw [hlead, hbody]
    rfl
  · -- All components are dropped, and idle pieces are trimmed.
    rcases dropComponents_append base.body [] with ⟨idle, hidle, hdrop⟩
    rw [List.append_nil, List.append_nil] at hdrop
    have htrim := trim_idle_append idle [] hidle
    rw [List.append_nil] at htrim
    rw [stripPrefix?_of_ne base base hbase, if_pos rfl, hdrop, Option.map_some, htrim]
    rfl

/-- Inside of a path there is neither a root nor a first dot. -/
theorem not_mem_filterMap_component? (ps : List PathPiece) :
    Component.root ∉ ps.filterMap component? ∧ Component.here ∉ ps.filterMap component? := by
  have hcomponent : ∀ x : PathPiece, component? x ≠ some .root ∧ component? x ≠ some .here := by
    intro x
    unfold component?
    split
    · -- An idle piece is no component at all, and the others are dots or names.
      exact ⟨by simp only [ne_eq, reduceCtorEq, not_false_eq_true],
        by simp only [ne_eq, reduceCtorEq, not_false_eq_true]⟩
    split <;> exact ⟨by simp only [ne_eq, Option.some.injEq, reduceCtorEq, not_false_eq_true],
        by simp only [ne_eq, Option.some.injEq, reduceCtorEq, not_false_eq_true]⟩
  constructor
  · intro h
    rcases List.mem_filterMap.mp h with ⟨x, _, hx⟩
    exact (hcomponent x).1 hx
  · intro h
    rcases List.mem_filterMap.mp h with ⟨x, _, hx⟩
    exact (hcomponent x).2 hx

/-- When the components of a base come first, the leads are the same. -/
theorem lead_eq_of_prefix (p base : Path) (hbase : base.octets ≠ [])
    (h : base.components <+: p.components) :
    p.lead = base.lead ∧ base.body.filterMap component? <+: p.body.filterMap component? := by
  have hne : base.components ≠ [] := fun hnil => hbase ((components_eq_nil_iff base).mp hnil)
  rcases not_mem_filterMap_component? p.body with ⟨hroot, hhere⟩
  rcases not_mem_filterMap_component? base.body with ⟨hbaseRoot, hbaseHere⟩
  unfold components at h hne
  -- Both sides start with the component of the lead, if there is one.
  cases hl : base.lead <;> cases hp : p.lead <;>
    simp only [hl, hp, Lead.components, List.singleton_append, List.nil_append,
      List.cons_prefix_cons, reduceCtorEq, false_and] at h hne ⊢
  · exact ⟨trivial, h.2⟩
  · exact absurd (h.subset List.mem_cons_self) hroot
  · exact ⟨trivial, h.2⟩
  · exact absurd (h.subset List.mem_cons_self) hhere
  · cases hb : base.body.filterMap component? with
    | nil => exact absurd hb hne
    | cons c cs =>
      rw [hb, List.cons_prefix_cons] at h
      exact absurd (by rw [hb, h.1]; exact List.mem_cons_self) hbaseRoot
  · cases hb : base.body.filterMap component? with
    | nil => exact absurd hb hne
    | cons c cs =>
      rw [hb, List.cons_prefix_cons] at h
      exact absurd (by rw [hb, h.1]; exact List.mem_cons_self) hbaseHere
  · exact ⟨trivial, h⟩

/-- A base can be taken off when its components come first. -/
theorem stripPrefix?_isSome_iff (p base : Path) :
    (p.stripPrefix? base).isSome = true ↔ base.components <+: p.components := by
  by_cases hbase : base.octets = []
  · rw [stripPrefix?_of_empty p base hbase, (components_eq_nil_iff base).mpr hbase]
    exact ⟨fun _ => List.nil_prefix, fun _ => rfl⟩
  constructor
  · intro h
    rcases Option.isSome_iff_exists.mp h with ⟨r, hr⟩
    rcases stripPrefix?_eq_some p base r hbase hr with ⟨_, _, hcomponents⟩
    exact ⟨_, hcomponents.symm⟩
  · intro h
    rw [stripPrefix?_of_ne p base hbase]
    rcases lead_eq_of_prefix p base hbase h with ⟨hlead, hprefix⟩
    rw [if_pos hlead, Option.isSome_map]
    exact dropComponents_isSome _ _ hprefix

/-- What is left of a text is a text. -/
theorem isText_of_stripPrefix? (p base r : Path) (hp : p.IsText)
    (h : p.stripPrefix? base = some r) : r.IsText := by
  by_cases hbase : base.octets = []
  · rw [stripPrefix?_of_empty p base hbase, Option.some.injEq] at h
    rw [← h]
    exact isText_tidy p hp
  · rw [stripPrefix?_of_ne p base hbase] at h
    by_cases hlead : p.lead = base.lead
    · rw [if_pos hlead, Option.map_eq_some_iff] at h
      rcases h with ⟨rest, hdrop, rfl⟩
      refine isText_ofPieces _ fun x hx => isText_of_mem_pieces p hp x ?_
      exact mem_pieces_of_mem_body p x
        ((dropComponents_eq_some _ _ _ hdrop).2.subset (mem_of_mem_trim rest x hx))
    · rw [if_neg hlead] at h
      exact absurd h (by simp only [reduceCtorEq, not_false_eq_true])

/-- What is left of a text that was joined to a base is a text, also when the
    base is none. -/
theorem isText_of_stripPrefix?_join (base q r : Path) (hq : q.IsText)
    (h : (base.join q).stripPrefix? base = some r) : r.IsText := by
  -- An absolute path wins, and so does any path over an empty base.
  by_cases habsolute : q.isAbsolute = true
  · rw [join, if_pos habsolute] at h
    exact isText_of_stripPrefix? q base r hq h
  by_cases hbase : base.octets = []
  · rw [join_of_empty base q hbase] at h
    exact isText_of_stripPrefix? q base r hq h
  · rw [stripPrefix?_join base q hbase (by simpa using habsolute), Option.some.injEq] at h
    rw [← h]
    exact isText_ofPieces _ fun x hx => isText_of_mem_pieces q hq x (mem_of_mem_trim _ x hx)

end Path

end SourceMarkers
