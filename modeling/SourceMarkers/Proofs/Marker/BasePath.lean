import SourceMarkers.Marker.Wire
import SourceMarkers.Proofs.Path.Shorthand

/-!
# Base paths that come back

A base path is written with a slash at its end, so what is read back is not
spelled as it was. It is the same path, and once it was written and read, its
text stays.

The slash is no harm below the home directory: `~` becomes `~/`, which joins
nothing to the home directory, and a longer rest only gets an idle piece.
Elsewhere it is one as soon as the path is empty, as a slash alone is the root.
`MarkerSet.CleanBase` rules this out, and every base path that was read from a
text that is not empty meets it.

## Main definitions

* `MarkerSet.CleanBase`: A base path that its text gives back.

## Theorems

* `MarkerSet.baseText_below`, `MarkerSet.baseText_outside`: The text of a base
  path, and what it is read as.
* `MarkerSet.expand_baseText`: A clean base path comes back up to its spelling.
* `MarkerSet.baseText_expand_baseText`: Its text comes back as it was.
* `MarkerSet.cleanBase_expand`: A base path that was read is clean.
-/

namespace SourceMarkers

namespace MarkerSet

/-- The text ends in a slash. -/
def EndsInSlash (text : String) : Prop := text.toList.getLast? = some '/'

instance (text : String) : Decidable (EndsInSlash text) :=
  inferInstanceAs (Decidable (text.toList.getLast? = some '/'))

/-- A base path that its text gives back, up to its spelling. -/
structure CleanBase (s : Shorthand) (base : Path) : Prop where
  clean : s.Clean base
  /-- Outside of the home directory it is not empty. -/
  nonempty : s.home?.bind base.stripPrefix? = none → base.octets ≠ []

theorem endsInSlash_push (text : String) : EndsInSlash (text.push '/') := by
  rw [EndsInSlash, String.toList_push, List.getLast?_concat]

theorem baseText_eq (s : Shorthand) (base : Path) :
    baseText s base =
      if EndsInSlash (s.shorten base) then s.shorten base else (s.shorten base).push '/' := rfl

/-- The text of a base path ends in a slash. -/
theorem endsInSlash_baseText (s : Shorthand) (base : Path) : EndsInSlash (baseText s base) := by
  rw [baseText_eq]
  split
  · next h => exact h
  · exact endsInSlash_push _

theorem baseText_ne_empty (s : Shorthand) (base : Path) : baseText s base ≠ "" := by
  intro h
  have hslash := endsInSlash_baseText s base
  rw [h] at hslash
  exact absurd hslash (by decide)

/-- A slash behind a text is a slash behind its path. -/
theorem ofString_push (text : String) :
    Path.ofString (text.push '/') = (Path.ofString text).addSlash := by
  rw [Path.ofString, Utf8.ofString, String.toList_push, Utf8.encode_append, Path.addSlash]
  rfl

/-- Below the home directory, the text of a base path is the tilde with the rest,
    or with the rest and one more slash, if there is a rest. -/
theorem baseText_below (s : Shorthand) (home base rest : Path) (hhome : s.home? = some home)
    (hrest : base.stripPrefix? home = some rest) (htext : rest.IsText) :
    ∃ text, baseText s base = "~/" ++ text ∧
      (Path.ofString text = rest ∨
        (rest.octets ≠ [] ∧ Path.ofString text = rest.addSlash)) := by
  have hshort := Shorthand.shorten_below s home base rest hhome hrest
  have hback := Path.ofString_toStringLossy rest htext
  rw [baseText_eq]
  by_cases hempty : rest.octets = []
  · -- The home directory is written as `~/`.
    refine ⟨"", ?_, Or.inl ?_⟩
    · rw [hshort, if_pos hempty]
      rfl
    · rcases rest with ⟨octets⟩
      exact (congrArg Path.mk hempty).symm
  rw [if_neg hempty] at hshort
  -- Otherwise a slash stands behind the rest already, or it is added there.
  by_cases hslash : EndsInSlash (s.shorten base)
  · exact ⟨rest.toStringLossy, by rw [if_pos hslash, hshort], Or.inl hback⟩
  · refine ⟨rest.toStringLossy.push '/', ?_, Or.inr ⟨hempty, ?_⟩⟩
    · rw [if_neg hslash, hshort, Shorthand.push_below]
    · rw [ofString_push, hback]

/-- Either way it leaves the same behind when it is joined and stripped
    again. -/
theorem stripPrefix?_join_baseText (s : Shorthand) (home base rest : Path)
    (hhome : s.home? = some home) (hrest : base.stripPrefix? home = some rest)
    (htext : rest.IsText) :
    ∃ text, baseText s base = "~/" ++ text ∧
      (home.join (.ofString text)).stripPrefix? home = some rest := by
  rcases baseText_below s home base rest hhome hrest htext with ⟨text, hbase, heq | ⟨hne, heq⟩⟩
  · refine ⟨text, hbase, ?_⟩
    rw [heq]
    exact Path.stripPrefix?_join_of_stripPrefix? base home rest hrest
  · refine ⟨text, hbase, ?_⟩
    rw [heq]
    exact Path.stripPrefix?_join_addSlash base home rest hrest hne

/-- A text that does not look short still does not with a slash behind it. -/
theorem not_isTilde_push (text : String) (h : ¬ Shorthand.IsTilde text) :
    ¬ Shorthand.IsTilde (text.push '/') := by
  rintro (heq | ⟨rest, hrest⟩)
  · -- A tilde alone does not end in a slash.
    have hslash := endsInSlash_push text
    rw [heq] at hslash
    exact absurd hslash (by decide)
  · rw [String.toList_push] at hrest
    apply h
    cases hchars : text.toList with
    | nil =>
      rw [hchars] at hrest
      exact absurd hrest (by simp only [List.nil_append, List.cons.injEq, Char.reduceEq, false_and,
        not_false_eq_true])
    | cons c cs =>
      rw [hchars, List.cons_append, List.cons.injEq] at hrest
      cases cs with
      | nil =>
        -- The slash behind the tilde is the one that was added.
        refine Or.inl (String.toList_inj.mp ?_)
        rw [hchars, hrest.1]
        rfl
      | cons d ds =>
        rw [List.cons_append, List.cons.injEq] at hrest
        exact Or.inr ⟨ds, by rw [hchars, hrest.1, hrest.2.1]⟩

/-- Outside of the home directory, the text of a base path is read as the path
    itself or with one more slash at its end, also below another home
    directory. -/
theorem baseText_outside (s t : Shorthand) (base : Path)
    (hnone : s.home?.bind base.stripPrefix? = none) (htext : base.IsText)
    (hplain : t.home? = none ∨ ¬ Shorthand.IsTilde base.toStringLossy) (hne : base.octets ≠ []) :
    (t.expand (baseText s base)).Same base ∧
      (t.expand (baseText s base)).toStringLossy = baseText s base := by
  rw [baseText_eq, Shorthand.shorten_outside s base hnone]
  by_cases hslash : EndsInSlash base.toStringLossy
  · rw [if_pos hslash, Shorthand.expand_plain t _ hplain, Path.ofString_toStringLossy base htext]
    exact ⟨rfl, rfl⟩
  · rw [if_neg hslash, Shorthand.expand_plain t _ (hplain.imp_right (not_isTilde_push _))]
    refine ⟨?_, Shorthand.toStringLossy_ofString _⟩
    -- Behind a path that is not empty a slash is an idle piece.
    rw [ofString_push, Path.ofString_toStringLossy base htext]
    exact Path.same_addSlash base hne

/-- The same path is on the same side of the home directory. -/
theorem stripPrefix?_none_of_same (s : Shorthand) (p q : Path) (h : p.Same q)
    (hnone : s.home?.bind q.stripPrefix? = none) : s.home?.bind p.stripPrefix? = none := by
  cases hhome : s.home? with
  | none => rfl
  | some home =>
    rw [hhome, Option.bind_some, ← Option.not_isSome_iff_eq_none, Path.stripPrefix?_isSome_iff]
      at hnone
    rw [Option.bind_some, ← Option.not_isSome_iff_eq_none, Path.stripPrefix?_isSome_iff, h]
    exact hnone

/-- A clean base path comes back from its text up to its spelling. -/
theorem expand_baseText (s : Shorthand) (base : Path) (h : CleanBase s base) :
    (s.expand (baseText s base)).Same base := by
  cases h.clean with
  | below home rest hhome hrest htext =>
    rcases stripPrefix?_join_baseText s home base rest hhome hrest htext with ⟨text, hbase, hjoin⟩
    rw [hbase, Shorthand.expand_below s home text hhome]
    -- Both are the home directory joined with the same rest.
    exact (Path.same_join_of_stripPrefix? _ home rest hjoin).symm.trans
      (Path.same_join_of_stripPrefix? base home rest hrest)
  | outside hnone htext hplain =>
    exact (baseText_outside s s base hnone htext hplain (h.nonempty hnone)).1

/-- The text of a clean base path comes back as it was. -/
theorem baseText_expand_baseText (s : Shorthand) (base : Path) (h : CleanBase s base) :
    baseText s (s.expand (baseText s base)) = baseText s base := by
  cases h.clean with
  | below home rest hhome hrest htext =>
    rcases stripPrefix?_join_baseText s home base rest hhome hrest htext with ⟨text, hbase, hjoin⟩
    -- The short text is that of the rest, which stays.
    have hshort : s.shorten (s.expand (baseText s base)) = s.shorten base := by
      rw [hbase, Shorthand.expand_below s home text hhome,
        Shorthand.shorten_below s home _ rest hhome hjoin,
        Shorthand.shorten_below s home base rest hhome hrest]
    rw [baseText_eq, hshort, ← baseText_eq]
  | outside hnone htext hplain =>
    rcases baseText_outside s s base hnone htext hplain (h.nonempty hnone) with ⟨hsame, hlossy⟩
    rw [baseText_eq, Shorthand.shorten_outside s _ (stripPrefix?_none_of_same s _ _ hsame hnone),
      hlossy, if_pos (endsInSlash_baseText s base)]

/-- A base path that was read from a text that is not empty is clean. -/
theorem cleanBase_expand (s : Shorthand) (text : String) (h : text ≠ "") :
    CleanBase s (s.expand text) :=
  ⟨Shorthand.clean_expand s text, Shorthand.expand_octets_ne_nil s text h⟩

end MarkerSet

end SourceMarkers
