import SourceMarkers.Path.Shorthand
import SourceMarkers.Proofs.Path.Prefix

/-!
# Paths that come back

Which paths their short text gives back, and that every path which was once
read from a text is one of them.

A path below the home directory comes back when what is left below it is a
text: the tilde stands for the home directory on both ways, and the rest only
loses idle pieces at its ends. Any other path comes back when it is a text and
that text does not look as if it were short. `Shorthand.Clean` has these two
cases, and everything that is written and read again is stated of clean paths.

A path read from a text is clean whatever the text and whatever the home
directory is. The one surprise is a rest that starts with a slash, as in
`~//x`: joining lets it win, and the path is the one behind the tilde.

## Main definitions

* `Shorthand.IsTilde`: A text that is read as below the home directory.
* `Shorthand.Clean`: A path that its text gives back.

## Theorems

* `Shorthand.expand_shorten`: A clean path comes back up to its spelling.
* `Shorthand.shorten_expand_shorten`: Its text comes back as it was.
* `Shorthand.clean_expand`: A path that was read is clean.
-/

namespace SourceMarkers

namespace Shorthand

/-! ## The two ways -/

/-- The text is read as the home directory or a path below it. -/
def IsTilde (text : String) : Prop := text = "~" ∨ ∃ rest, text.toList = '~' :: '/' :: rest

/-- The characters of the text of something below the home directory. -/
theorem toList_below (text : String) : ("~/" ++ text).toList = '~' :: '/' :: text.toList := by
  rw [String.toList_append]
  rfl

theorem toStringLossy_ofString (text : String) : (Path.ofString text).toStringLossy = text := by
  rw [Path.ofString, Path.toStringLossy, Utf8.toStringLossy, Utf8.ofString,
    Utf8.decodeLossy_encode, String.ofList_toList]

theorem eq_below_of_toList (text : String) (rest : List Char)
    (h : text.toList = '~' :: '/' :: rest) : text = "~/" ++ String.ofList rest := by
  rw [← String.toList_inj, toList_below, String.toList_ofList, h]

theorem push_below (text : String) : ("~/" ++ text).push '/' = "~/" ++ text.push '/' := by
  rw [← String.toList_inj, String.toList_push, toList_below, toList_below, String.toList_push]
  rfl

/-- Only an empty text is the text of an empty path. -/
theorem ofString_octets_ne_nil (text : String) (h : text ≠ "") :
    (Path.ofString text).octets ≠ [] := by
  intro hnil
  have hempty : Path.ofString text = Path.ofString "" := congrArg Path.mk hnil
  have hback := toStringLossy_ofString text
  rw [hempty, toStringLossy_ofString] at hback
  exact h hback.symm

theorem expand_home (s : Shorthand) (home : Path) (h : s.home? = some home) :
    s.expand "~" = home := by
  rw [expand, h]
  rfl

theorem expand_below (s : Shorthand) (home : Path) (text : String) (h : s.home? = some home) :
    s.expand ("~/" ++ text) = home.join (.ofString text) := by
  rw [expand, h]
  simp only [toList_below]
  rfl

theorem expand_plain (s : Shorthand) (text : String) (h : s.home? = none ∨ ¬ IsTilde text) :
    s.expand text = .ofString text := by
  cases hhome : s.home? with
  | none => rw [expand, hhome]
  | some home =>
    have hplain : ¬ IsTilde text := h.resolve_left (by rw [hhome]; exact Option.some_ne_none home)
    rw [expand, hhome]
    simp only []
    -- The first two branches are for texts with a tilde.
    split
    · next htext =>
      exact absurd (Or.inl (String.toList_inj.mp htext)) hplain
    · next rest htext => exact absurd (Or.inr ⟨rest, htext⟩) hplain
    · rfl

/-- A text is read as the home directory, as a path joined to it, or as it
    stands. -/
theorem expand_cases (s : Shorthand) (home : Path) (text : String) (h : s.home? = some home) :
    s.expand text = home ∨ (∃ rest, s.expand text = home.join (.ofString rest)) ∨
      (s.expand text = .ofString text ∧ ¬ IsTilde text) := by
  by_cases htilde : IsTilde text
  · rcases htilde with rfl | ⟨rest, hrest⟩
    · exact Or.inl (expand_home s home h)
    · exact Or.inr (Or.inl ⟨String.ofList rest,
        by rw [eq_below_of_toList text rest hrest, expand_below s home _ h]⟩)
  · exact Or.inr (Or.inr ⟨expand_plain s text (Or.inr htilde), htilde⟩)

theorem shorten_below (s : Shorthand) (home p rest : Path) (h : s.home? = some home)
    (hrest : p.stripPrefix? home = some rest) :
    s.shorten p = if rest.octets = [] then "~" else "~/" ++ rest.toStringLossy := by
  simp only [shorten, h, Option.bind_some, hrest]

theorem shorten_outside (s : Shorthand) (p : Path) (h : s.home?.bind p.stripPrefix? = none) :
    s.shorten p = p.toStringLossy := by
  simp only [shorten, h]

/-! ## Clean paths -/

/-- A path that its text gives back, up to its spelling. -/
inductive Clean (s : Shorthand) (p : Path) : Prop where
  /-- Below the home directory, and the rest is a text. -/
  | below (home rest : Path) (hhome : s.home? = some home)
      (hrest : p.stripPrefix? home = some rest) (htext : rest.IsText)
  /-- Anywhere else, a text that does not look short. -/
  | outside (hnone : s.home?.bind p.stripPrefix? = none) (htext : p.IsText)
      (hplain : s.home? = none ∨ ¬ IsTilde p.toStringLossy)

/-- The home directory is what is below itself with nothing left. -/
theorem same_home (home p rest : Path) (h : p.stripPrefix? home = some rest)
    (hrest : rest.octets = []) : home.Same p := by
  -- Joining nothing to the home directory gives both paths.
  have hjoin := Path.same_join_of_stripPrefix? p home rest h
  have hself := Path.same_join_of_stripPrefix? home home ⟨[]⟩ (Path.stripPrefix?_self home)
  have heq : rest = ⟨[]⟩ := by rcases rest with ⟨octets⟩; exact congrArg Path.mk hrest
  rw [heq] at hjoin
  exact hself.symm.trans hjoin

/-- A clean path comes back from its text up to its spelling. -/
theorem expand_shorten (s : Shorthand) (p : Path) (h : s.Clean p) :
    (s.expand (s.shorten p)).Same p := by
  cases h with
  | below home rest hhome hrest htext =>
    rw [shorten_below s home p rest hhome hrest]
    by_cases hempty : rest.octets = []
    · -- The tilde alone stands for the home directory.
      rw [if_pos hempty, expand_home s home hhome]
      exact same_home home p rest hrest hempty
    · -- Joining undoes stripping, up to idle pieces.
      rw [if_neg hempty, expand_below s home _ hhome, Path.ofString_toStringLossy rest htext]
      exact Path.same_join_of_stripPrefix? p home rest hrest
  | outside hnone htext hplain =>
    rw [shorten_outside s p hnone, expand_plain s _ hplain, Path.ofString_toStringLossy p htext]
    exact rfl

/-- The text of a clean path comes back as it was. -/
theorem shorten_expand_shorten (s : Shorthand) (p : Path) (h : s.Clean p) :
    s.shorten (s.expand (s.shorten p)) = s.shorten p := by
  cases h with
  | below home rest hhome hrest htext =>
    rw [shorten_below s home p rest hhome hrest]
    by_cases hempty : rest.octets = []
    · rw [if_pos hempty, expand_home s home hhome,
        shorten_below s home home ⟨[]⟩ hhome (Path.stripPrefix?_self home), if_pos rfl]
    · -- Stripping what was joined leaves the very same rest.
      rw [if_neg hempty, expand_below s home _ hhome, Path.ofString_toStringLossy rest htext,
        shorten_below s home _ rest hhome
          (Path.stripPrefix?_join_of_stripPrefix? p home rest hrest),
        if_neg hempty]
  | outside hnone htext hplain =>
    rw [shorten_outside s p hnone, expand_plain s _ hplain, Path.ofString_toStringLossy p htext,
      shorten_outside s p hnone]

/-! ## Paths that were read -/

/-- An absolute path does not look short. -/
theorem not_isTilde_of_isAbsolute (p : Path) (h : p.IsText) (habsolute : p.isAbsolute = true) :
    ¬ IsTilde p.toStringLossy := by
  intro htilde
  rw [← Path.ofString_toStringLossy p h] at habsolute
  rw [Path.isAbsolute, Path.ofString, Utf8.ofString] at habsolute
  -- Short or not, the text starts with a tilde, and not with a slash.
  have htext : ∃ rest, p.toStringLossy.toList = '~' :: rest := by
    rcases htilde with heq | ⟨rest, hrest⟩
    · exact ⟨[], by rw [heq]; rfl⟩
    · exact ⟨_, hrest⟩
  rcases htext with ⟨rest, hrest⟩
  have hoctets : Utf8.encode ('~' :: rest) = 0x7E :: Utf8.encode rest := rfl
  rw [hrest, hoctets, List.head?_cons] at habsolute
  exact absurd habsolute (by decide)

/-- A joined path that is not below its base is the absolute path that was to
    be joined. -/
theorem join_eq_of_stripPrefix?_none (home q : Path)
    (h : (home.join q).stripPrefix? home = none) : q.isAbsolute = true ∧ home.join q = q := by
  by_cases habsolute : q.isAbsolute = true
  · exact ⟨habsolute, by rw [Path.join, if_pos habsolute]⟩
  · exfalso
    by_cases hempty : home.octets = []
    · rw [Path.stripPrefix?_of_empty _ home hempty] at h
      exact absurd h (Option.some_ne_none _)
    · -- A relative path that is joined is what stripping leaves behind.
      rw [Path.stripPrefix?_join home q hempty (by simpa using habsolute)] at h
      exact absurd h (Option.some_ne_none _)

/-- A path that was read from a text is clean. -/
theorem clean_expand (s : Shorthand) (text : String) : s.Clean (s.expand text) := by
  cases hhome : s.home? with
  | none =>
    rw [expand_plain s text (Or.inl hhome)]
    exact .outside (by rw [hhome]; rfl) (Path.isText_ofString text) (Or.inl hhome)
  | some home =>
    rcases expand_cases s home text hhome with hself | ⟨rest, hjoin⟩ | ⟨hplain, htilde⟩
    · rw [hself]
      exact .below home ⟨[]⟩ hhome (Path.stripPrefix?_self home) ⟨[], rfl⟩
    · -- A joined path may turn out to be the rest alone.
      rw [hjoin]
      have htext := Path.isText_ofString rest
      cases hstrip : (home.join (.ofString rest)).stripPrefix? home with
      | some r =>
        exact .below home r hhome hstrip (Path.isText_of_stripPrefix?_join home _ r htext hstrip)
      | none =>
        rcases join_eq_of_stripPrefix?_none home _ hstrip with ⟨habsolute, heq⟩
        rw [heq] at hstrip ⊢
        exact .outside (by rw [hhome]; exact hstrip) htext
          (Or.inr (not_isTilde_of_isAbsolute _ htext habsolute))
    · -- A text that was taken as it stands may still lie below the home directory.
      rw [hplain]
      have htext := Path.isText_ofString text
      cases hstrip : (Path.ofString text).stripPrefix? home with
      | some r =>
        exact .below home r hhome hstrip (Path.isText_of_stripPrefix? _ home r htext hstrip)
      | none =>
        exact .outside (by rw [hhome]; exact hstrip) htext
          (Or.inr (by rwa [toStringLossy_ofString]))

/-- A text that is not empty is read as an empty path only below an empty home
    directory. -/
theorem expand_octets_ne_nil (s : Shorthand) (text : String) (h : text ≠ "")
    (hnone : s.home?.bind (s.expand text).stripPrefix? = none) :
    (s.expand text).octets ≠ [] := by
  cases hhome : s.home? with
  | none =>
    rw [expand_plain s text (Or.inl hhome)]
    exact ofString_octets_ne_nil text h
  | some home =>
    rw [hhome, Option.bind_some] at hnone
    rcases expand_cases s home text hhome with hself | ⟨rest, hjoin⟩ | ⟨hplain, _⟩
    · rw [hself, Path.stripPrefix?_self] at hnone
      exact absurd hnone (Option.some_ne_none _)
    · -- Only an absolute path leaves the home directory when it is joined.
      rw [hjoin] at hnone ⊢
      rcases join_eq_of_stripPrefix?_none home _ hnone with ⟨habsolute, heq⟩
      rw [heq]
      exact Path.octets_ne_nil_of_isAbsolute _ habsolute
    · rw [hplain]
      exact ofString_octets_ne_nil text h

end Shorthand

end SourceMarkers
