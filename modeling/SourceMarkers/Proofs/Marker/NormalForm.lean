import Mathlib.Logic.Function.Iterate
import SourceMarkers.Proofs.Marker.BasePath

/-!
# The normal form of a text

A text is read as a path, and the path is written as a text, which may be another one:
`~//x` becomes `/x`, a path that is spelled out below the home directory becomes short,
and a base path gets its slash. That happens once. The text that was written names the
same path as the first one, and reading and writing it again changes nothing, however
often it is done. This holds of both ways to write a path, and `Shorthand.Settles` takes
the way as a parameter.

The home directory is any path here, the empty one, a relative one and the root
included, and so is the text. Only the empty text is an exception, and only for base
paths: with a slash behind it the empty path is the root, unless the home directory is
the empty path as well. Where base paths are read an empty text is taken for none, so
it never gets this far.

The text that stays is not the only one for its path, as idle pieces in the middle stay
too. But two texts that become the same one name the same path.

## Main definitions

* `Shorthand.Settles`: A text stays when it was read and written once.
* `Shorthand.HasEmptyHome`: The home directory is the empty path.
* `MarkerSet.emptyBaseText`, `MarkerSet.emptyBaseBack`: What an empty base path is
  written as, and what comes back of it.

## Theorems

* `Shorthand.Settles.iterate`: It stays however often it is read and written.
* `Shorthand.Settles.same_of_write_eq`: Texts that become the same name one path.
* `Shorthand.shorten_empty`: The text of the empty path.
* `MarkerSet.settles_baseText_iff`: When the text of a base path stays.
* `MarkerSet.normal_form`: Both ways to write a path.
-/

namespace SourceMarkers

namespace Shorthand

/-- A text settles under a way to write paths: what the text becomes when it is read
    and written once names the same path, and becomes itself from then on. -/
structure Settles (s : Shorthand) (write : Path → String) (text : String) : Prop where
  same : (s.expand (write (s.expand text))).Same (s.expand text)
  stays : write (s.expand (write (s.expand text))) = write (s.expand text)

namespace Settles

variable {s : Shorthand} {write : Path → String} {text : String}

/-- Reading and writing a text any number of times, but at least once, is doing it
    once, and the path is that of the text. -/
theorem iterate (h : s.Settles write text) (n : Nat) :
    (fun t => write (s.expand t))^[n + 1] text = write (s.expand text) ∧
      (s.expand ((fun t => write (s.expand t))^[n + 1] text)).Same (s.expand text) := by
  have hstays : (fun t => write (s.expand t))^[n + 1] text = write (s.expand text) := by
    induction n with
    | zero => rfl
    | succ n ih => rw [Function.iterate_succ_apply', ih, h.stays]
  rw [hstays]
  exact ⟨rfl, h.same⟩

/-- Two texts that become the same one name the same path. -/
theorem same_of_write_eq {other : String} (h : s.Settles write text)
    (hother : s.Settles write other) (heq : write (s.expand text) = write (s.expand other)) :
    (s.expand text).Same (s.expand other) := by
  have hsame := h.same
  rw [heq] at hsame
  exact hsame.symm.trans hother.same

end Settles

/-- Every text settles when paths are written short. -/
theorem settles_shorten (s : Shorthand) (text : String) : s.Settles s.shorten text :=
  ⟨s.expand_shorten _ (s.clean_expand text), s.shorten_expand_shorten _ (s.clean_expand text)⟩

/-! ## The empty path -/

/-- The home directory is the empty path, and every path lies below it. -/
def HasEmptyHome (s : Shorthand) : Prop := s.home? = some ⟨[]⟩

instance (s : Shorthand) : Decidable s.HasEmptyHome :=
  inferInstanceAs (Decidable (s.home? = some ⟨[]⟩))

/-- The empty path is the home directory if that is empty, and else outside of it. -/
theorem shorten_empty (s : Shorthand) : s.shorten ⟨[]⟩ = if s.HasEmptyHome then "~" else "" := by
  by_cases h : s.HasEmptyHome
  · rw [if_pos h, shorten_below s ⟨[]⟩ ⟨[]⟩ ⟨[]⟩ h (Path.stripPrefix?_self ⟨[]⟩), if_pos rfl]
  · have hnone : s.home?.bind (Path.mk []).stripPrefix? = none := by
      cases hhome : s.home? with
      | none => rfl
      | some home =>
        have hne : home.octets ≠ [] := by
          intro hempty
          rcases home with ⟨octets⟩
          exact h (hhome.trans (congrArg (fun octets => some (Path.mk octets)) hempty))
        rw [Option.bind_some, ← Option.not_isSome_iff_eq_none, Path.stripPrefix?_isSome_iff,
          (Path.components_eq_nil_iff ⟨[]⟩).mpr rfl, List.prefix_nil, Path.components_eq_nil_iff]
        exact hne
    rw [if_neg h, shorten_outside s _ hnone]
    rfl

/-- The empty text is read as the empty path. -/
theorem expand_empty (s : Shorthand) : s.expand "" = ⟨[]⟩ := by
  refine s.expand_plain "" (Or.inr ?_)
  rintro (heq | ⟨rest, hrest⟩)
  · exact absurd heq (by decide)
  · exact absurd hrest (List.cons_ne_nil _ _).symm

end Shorthand

namespace MarkerSet

/-- What an empty base path is written as: the root, or an empty home directory. -/
def emptyBaseText (s : Shorthand) : String := if s.HasEmptyHome then "~/" else "/"

/-- What comes back of an empty base path. -/
def emptyBaseBack (s : Shorthand) : Path := if s.HasEmptyHome then ⟨[]⟩ else .ofString "/"

/-- A slash stands behind the text of the empty path. -/
theorem baseText_empty (s : Shorthand) : baseText s ⟨[]⟩ = emptyBaseText s := by
  rw [baseText_eq, Shorthand.shorten_empty, emptyBaseText]
  by_cases h : s.HasEmptyHome
  · simp only [if_pos h]
    decide
  · simp only [if_neg h]
    decide

theorem expand_emptyBaseText (s : Shorthand) : s.expand (emptyBaseText s) = emptyBaseBack s := by
  rw [emptyBaseText, emptyBaseBack]
  by_cases h : s.HasEmptyHome
  · have hbelow := Shorthand.expand_below s ⟨[]⟩ "" h
    rw [Path.join_of_empty _ _ rfl] at hbelow
    rw [if_pos h, if_pos h]
    exact hbelow
  · have hplain := Shorthand.not_isTilde_of_isAbsolute (.ofString "/") (Path.isText_ofString "/")
      (by decide)
    rw [Shorthand.toStringLossy_ofString] at hplain
    rw [if_neg h, if_neg h, Shorthand.expand_plain s "/" (Or.inr hplain)]

/-! ## Base paths -/

/-- A text that is not empty settles as the text of a base path. -/
theorem settles_baseText (s : Shorthand) (text : String) (h : text ≠ "") :
    s.Settles (baseText s) text :=
  ⟨expand_baseText s _ (cleanBase_expand s text h),
    baseText_expand_baseText s _ (cleanBase_expand s text h)⟩

/-- The empty text settles as the text of a base path only below an empty home
    directory, and any other text always. -/
theorem settles_baseText_iff (s : Shorthand) (text : String) :
    s.Settles (baseText s) text ↔ text ≠ "" ∨ s.HasEmptyHome := by
  by_cases htext : text = ""
  · rw [htext]
    constructor
    · intro h
      have hsame := h.same
      rw [s.expand_empty, baseText_empty, expand_emptyBaseText, emptyBaseBack] at hsame
      by_cases hempty : s.HasEmptyHome
      · exact Or.inr hempty
      · -- The root is another path than the empty one.
        rw [if_neg hempty] at hsame
        exact absurd hsame (by decide)
    · rintro (hne | hempty)
      · exact absurd rfl hne
      · have hback : emptyBaseBack s = ⟨[]⟩ := if_pos hempty
        refine ⟨?_, ?_⟩
        · rw [s.expand_empty, baseText_empty, expand_emptyBaseText, hback]
          rfl
        · rw [s.expand_empty, baseText_empty, expand_emptyBaseText, hback, baseText_empty]
  · exact iff_of_true (settles_baseText s text htext) (Or.inl htext)

/-- Whatever the home directory, and whether there is one: what a text becomes when it
    is read as a path and written short names the same path, and it stays as it is when
    it is read and written again. So it is for a base path that is written with its slash
    if the text is not empty. Both then stay for ever. -/
theorem normal_form (s : Shorthand) (text : String) :
    s.Settles s.shorten text ∧ (text ≠ "" → s.Settles (baseText s) text) ∧
      ∀ n, (fun t => s.shorten (s.expand t))^[n + 1] text = s.shorten (s.expand text) ∧
        (text ≠ "" →
          (fun t => baseText s (s.expand t))^[n + 1] text = baseText s (s.expand text)) := by
  have hshort := s.settles_shorten text
  have hbase := settles_baseText s text
  exact ⟨hshort, hbase, fun n =>
    ⟨(hshort.iterate n).1, fun h => ((hbase h).iterate n).1⟩⟩

/-- Two slashes behind the tilde make the rest a path of its own, which may lie below the
    home directory all the same. -/
theorem normal_form_two_slashes :
    let s : Shorthand := ⟨some (.ofString "/home/./u/")⟩
    let text := "~//home/u/p"
    text ≠ "" ∧ s.shorten (s.expand text) = "~/p" ∧ baseText s (s.expand text) = "~/p/" ∧
      s.shorten (s.expand "~/p") = "~/p" ∧ baseText s (s.expand "~/p/") = "~/p/" ∧
      (s.expand "~/p/").Same (.ofString "/home/u/p") := by
  intro s text
  have hne : text ≠ "" := by decide
  have hpath : s.expand text = .ofString "/home/u/p" := by decide
  have hshort : s.shorten (s.expand text) = "~/p" := by decide
  have hbase : baseText s (s.expand text) = "~/p/" := by decide
  rcases normal_form s text with ⟨hsettles, hsettlesBase, _⟩
  have hstays := hsettles.stays
  have hstaysBase := (hsettlesBase hne).stays
  have hsame := (hsettlesBase hne).same
  rw [hshort] at hstays
  rw [hbase] at hstaysBase hsame
  rw [hpath] at hsame
  exact ⟨hne, hshort, hbase, hstays, hstaysBase, hsame⟩

end MarkerSet

end SourceMarkers
