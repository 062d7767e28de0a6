import SourceMarkers.Proofs.Path.Shorthand

/-!
# Only clean paths come back

The reverse direction of what is known of clean paths: a path that comes back
from its text is clean. What is no text is replaced when it is written, and no
replacement reads as the same path; what looks short is read as a path below the
home directory, and only that directory has such paths.

Both halves of the argument need nothing of how octets are replaced. Whatever
was written is a text, and a text has no component that is none. So a path with
the components of a text is a text, and then nothing of it was replaced.

An empty home directory is left out. Every path is below it, and the paths that
come back are others.

## Main definitions

* `Component.IsText`: The component is written with nothing but UTF-8.
* `Shorthand.ProperHome`: The home directory, if there is one, is not empty.

## Theorems

* `Path.isText_iff`: A path is a text when its components are.
* `Shorthand.isText_of_same_below`, `Shorthand.isText_of_same_outside`: What is
  known of a path that is read from a text, whatever the text is.
* `Shorthand.clean_of_same`: A path that comes back is clean.
* `Shorthand.same_expand_shorten_iff`: The clean paths are those that come back.
-/

namespace SourceMarkers

namespace Path

/-! ## Texts by their components -/

/-- The component is a text. -/
def Component.IsText : Component → Prop
  | .name octets => ∃ cs, octets = Utf8.encode cs
  | _ => True

/-- The pieces before the body of a path have no components. -/
theorem filterMap_body (p : Path) :
    p.body.filterMap component? = p.pieces.filterMap component? := by
  rcases p.shape with ⟨hoctets, _, hbody⟩ | ⟨_, hpieces, _⟩ | ⟨hpieces, _⟩ |
    ⟨first, rest, _, hpieces, _, hbody⟩
  · rw [hbody, pieces_of_octets_nil p hoctets]
  · rw [hpieces]; rfl
  · rw [hpieces]; rfl
  · rw [hbody, hpieces]

/-- A piece is a text when its component is one, if it has any. -/
theorem isText_piece_iff (piece : PathPiece) :
    (∃ cs, piece = Utf8.encode cs) ↔ ∀ c, component? piece = some c → c.IsText := by
  by_cases hidle : isIdle piece = true
  · -- Nothing and a single dot are texts.
    rw [(component?_eq_none_iff piece).mpr hidle]
    refine ⟨fun _ c h => absurd h (Option.some_ne_none c).symm, fun _ => ?_⟩
    rw [isIdle, Bool.or_eq_true, beq_iff_eq, beq_iff_eq] at hidle
    rcases hidle with rfl | rfl
    · exact ⟨[], rfl⟩
    · exact ⟨['.'], rfl⟩
  by_cases hup : piece = [dot, dot]
  · rw [hup]
    exact ⟨fun _ c h => by rw [← Option.some.inj h]; exact trivial, fun _ => ⟨['.', '.'], rfl⟩⟩
  · rw [component?, if_neg hidle, if_neg hup]
    exact ⟨fun h c hc => by rw [← Option.some.inj hc]; exact h, fun h => h _ rfl⟩

theorem isText_iff_pieces (p : Path) :
    p.IsText ↔ ∀ c ∈ p.pieces.filterMap component?, c.IsText := by
  constructor
  · intro h c hc
    rcases List.mem_filterMap.mp hc with ⟨piece, hpiece, hcomponent⟩
    exact (isText_piece_iff piece).mp (isText_of_mem_pieces p h piece hpiece) c hcomponent
  · intro h
    rw [← ofPieces_pieces p]
    refine isText_ofPieces _ fun piece hpiece => (isText_piece_iff piece).mpr fun c hc => ?_
    exact h c (List.mem_filterMap.mpr ⟨piece, hpiece, hc⟩)

/-- A path is a text when its components are. -/
theorem isText_iff (p : Path) : p.IsText ↔ ∀ c ∈ p.components, c.IsText := by
  rw [isText_iff_pieces, ← filterMap_body, components]
  simp only [List.mem_append, or_imp, forall_and]
  -- What stands in front of the body is no name.
  refine ⟨fun h => ⟨fun c hc => ?_, h⟩, fun h => h.2⟩
  cases hlead : p.lead <;> rw [hlead] at hc
  · rw [List.mem_singleton.mp hc]; exact trivial
  · rw [List.mem_singleton.mp hc]; exact trivial
  · exact absurd hc List.not_mem_nil

theorem isText_of_same (p q : Path) (h : q.Same p) (hq : q.IsText) : p.IsText := by
  rw [isText_iff] at hq ⊢
  rw [← h]
  exact hq

/-- A path that starts at the root has the root for a component. -/
theorem isAbsolute_iff_root_mem (p : Path) : p.isAbsolute = true ↔ .root ∈ p.components := by
  have hbody := (not_mem_filterMap_component? p.body).1
  rw [components, List.mem_append, or_iff_left hbody, lead]
  split
  · next h => exact ⟨fun _ => List.mem_singleton_self _, fun _ => h⟩
  · next h =>
    refine ⟨fun habsolute => absurd habsolute h, fun hmem => ?_⟩
    split at hmem
    · exact absurd (List.mem_singleton.mp hmem) (by simp only [reduceCtorEq, not_false_eq_true])
    · exact absurd hmem List.not_mem_nil

theorem isAbsolute_of_same (p q : Path) (h : q.Same p) (hq : q.isAbsolute = true) :
    p.isAbsolute = true := by
  rw [isAbsolute_iff_root_mem] at hq ⊢
  rw [← h]
  exact hq

end Path

namespace Shorthand

/-! ## Paths that come back -/

/-- The home directory, if there is one, is not empty. -/
def ProperHome (s : Shorthand) : Prop := ∀ home, s.home? = some home → home.octets ≠ []

/-- A path below the home directory that is read from a text leaves a text
    behind when the home directory is taken off. -/
theorem isText_of_same_below (s : Shorthand) (home p rest : Path) (text : String)
    (hs : s.ProperHome) (hhome : s.home? = some home) (hrest : p.stripPrefix? home = some rest)
    (h : (s.expand ("~/" ++ text)).Same p) : rest.IsText := by
  rw [expand_below s home text hhome] at h
  by_cases habsolute : (Path.ofString text).isAbsolute = true
  · -- The path is a text itself.
    rw [Path.join, if_pos habsolute] at h
    exact Path.isText_of_stripPrefix? p home rest
      (Path.isText_of_same p _ h (Path.isText_ofString text)) hrest
  · -- Behind the home directory stand the components of the rest, and they are
    -- those of a text.
    have hne := hs home hhome
    rcases Path.stripPrefix?_eq_some p home rest hne hrest with ⟨_, _, hcomponents⟩
    rw [Path.Same, Path.components_join home _ hne (by simpa using habsolute), hcomponents,
      List.append_cancel_left_eq] at h
    rw [Path.isText_iff_pieces, ← h, ← Path.isText_iff_pieces]
    exact Path.isText_ofString text

/-- A path outside of the home directory that is read from a text is a text.
    That text does not look short, unless the path is absolute. -/
theorem isText_of_same_outside (s : Shorthand) (p : Path) (text : String) (hs : s.ProperHome)
    (hnone : s.home?.bind p.stripPrefix? = none) (h : (s.expand text).Same p) :
    p.IsText ∧ (s.home? = none ∨ ¬ IsTilde text ∨ p.isAbsolute = true) := by
  cases hhome : s.home? with
  | none =>
    rw [expand_plain s text (Or.inl hhome)] at h
    exact ⟨Path.isText_of_same p _ h (Path.isText_ofString text), Or.inl rfl⟩
  | some home =>
    rw [hhome, Option.bind_some] at hnone
    -- The components of the home directory do not stand in front of the path.
    have hbelow : ∀ rest, p.components ≠ home.components ++ rest := by
      intro rest heq
      have hsome := (Path.stripPrefix?_isSome_iff p home).mpr ⟨rest, heq.symm⟩
      rw [hnone] at hsome
      exact absurd hsome (by decide)
    rcases expand_cases s home text hhome with hself | ⟨rest, hjoin⟩ | ⟨hplain, htilde⟩
    · rw [hself] at h
      exact absurd (h.symm.trans (List.append_nil _).symm) (hbelow [])
    · rw [hjoin] at h
      by_cases habsolute : (Path.ofString rest).isAbsolute = true
      · rw [Path.join, if_pos habsolute] at h
        exact ⟨Path.isText_of_same p _ h (Path.isText_ofString rest),
          Or.inr (Or.inr (Path.isAbsolute_of_same p _ h habsolute))⟩
      · rw [Path.Same, Path.components_join home _ (hs home hhome) (by simpa using habsolute)] at h
        exact absurd h.symm (hbelow _)
    · rw [hplain] at h
      exact ⟨Path.isText_of_same p _ h (Path.isText_ofString text), Or.inr (Or.inl htilde)⟩

/-- A path that its text gives back is clean. -/
theorem clean_of_same (s : Shorthand) (p : Path) (hs : s.ProperHome)
    (h : (s.expand (s.shorten p)).Same p) : s.Clean p := by
  cases hstrip : s.home?.bind p.stripPrefix? with
  | none =>
    rw [shorten_outside s p hstrip] at h
    rcases isText_of_same_outside s p _ hs hstrip h with ⟨htext, hplain⟩
    refine .outside hstrip htext (hplain.imp_right fun hplain => ?_)
    exact hplain.elim id (not_isTilde_of_isAbsolute p htext)
  | some rest =>
    rcases Option.bind_eq_some_iff.mp hstrip with ⟨home, hhome, hrest⟩
    refine .below home rest hhome hrest ?_
    rw [shorten_below s home p rest hhome hrest] at h
    by_cases hempty : rest.octets = []
    · exact ⟨[], hempty⟩
    · rw [if_neg hempty] at h
      exact isText_of_same_below s home p rest _ hs hhome hrest h

/-- The clean paths are those that their text gives back. -/
theorem same_expand_shorten_iff (s : Shorthand) (p : Path) (hs : s.ProperHome) :
    (s.expand (s.shorten p)).Same p ↔ s.Clean p :=
  ⟨clean_of_same s p hs, expand_shorten s p⟩

end Shorthand

end SourceMarkers
