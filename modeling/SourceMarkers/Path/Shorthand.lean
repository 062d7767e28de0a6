import SourceMarkers.Path.Basic

/-!
# Home-relative paths

Documents and messages carry paths that stay good on another machine: a path
below the home directory is written with a tilde in place of the home
directory, every other path as it is. In memory each path is written out.

Writing a path short takes the home directory off by components, so it does
not matter how either is spelled; what is left keeps its spelling. Writing a
short path out joins it to the home directory, and as joining lets an absolute
path win, `~//x` is the path `/x`.

Without a home directory nothing is shortened, and texts and paths only differ
in what is no text.

## Main definitions

* `Shorthand`: The home directory, if there is one.
* `Shorthand.shorten`: The text of a path.
* `Shorthand.expand`: The path of a text.
-/

namespace SourceMarkers

/-- The home directory that paths are shortened by, if any. -/
structure Shorthand where
  home? : Option Path
deriving DecidableEq, Repr

namespace Shorthand

/-- Every path is written as it is. -/
def verbatim : Shorthand := ⟨none⟩

/-- The text of a path. -/
def shorten (s : Shorthand) (p : Path) : String :=
  match s.home?.bind p.stripPrefix? with
  | none => p.toStringLossy
  | some rest => if rest.octets = [] then "~" else "~/" ++ rest.toStringLossy

/-- The path of a text. -/
def expand (s : Shorthand) (text : String) : Path :=
  match s.home? with
  | none => Path.ofString text
  | some home =>
    match text.toList with
    | ['~'] => home
    | '~' :: '/' :: rest => home.join ⟨Utf8.encode rest⟩
    | _ => Path.ofString text

end Shorthand

end SourceMarkers
