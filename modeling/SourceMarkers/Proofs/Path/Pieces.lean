import SourceMarkers.Path.Basic
import SourceMarkers.Proofs.Text.Cutting
import SourceMarkers.Text.Utf8.RoundTrip

/-!
# Pieces of paths

Facts about the pieces between the slashes, before they are read as a path.

Pieces hold no slash, and pieces without slashes come back when the path they
make is cut again. Trimming only drops idle pieces, so it keeps the components,
and it makes the idle pieces around a list of pieces disappear, however many
there are.

`Path.IsText` is the set of paths that are written with nothing but UTF-8. The
slash is one octet and no part of any other character, so cutting a text at its
slashes gives texts, and so does everything that is put together of its pieces.

## Main definitions

* `Path.IsText`: The octets of the path are a text.
* `Path.addSlash`: The path with one more slash at its end.

## Theorems

* `Path.pieces_ofPieces`: Pieces without slashes come back.
* `Path.filterMap_trim`, `Path.trim_append_idle`, `Path.trim_idle_append`:
  Trimming keeps components and drops what is idle at the ends.
* `Path.isText_ofPieces`: What is put together of texts is a text.
* `Path.isText_of_mem_pieces`: The pieces of a text are texts.
-/

namespace SourceMarkers

namespace Path

/-! ## Idle pieces -/

theorem component?_eq_none_iff (piece : PathPiece) :
    component? piece = none ↔ isIdle piece = true := by
  unfold component?
  by_cases h : isIdle piece = true
  · simp only [h, if_true]
  · rw [if_neg h]
    by_cases hup : piece = [dot, dot]
    · simp only [hup, if_true, reduceCtorEq, false_iff]
      decide
    · simp only [hup, if_false, reduceCtorEq, h]

/-- Idle pieces have no components. -/
theorem filterMap_idle (ps : List PathPiece) (h : ∀ x ∈ ps, isIdle x = true) :
    ps.filterMap component? = [] := by
  rw [List.filterMap_eq_nil_iff]
  exact fun x hx => (component?_eq_none_iff x).mpr (h x hx)

theorem filterMap_dropWhile_idle (ps : List PathPiece) :
    (ps.dropWhile isIdle).filterMap component? = ps.filterMap component? := by
  induction ps with
  | nil => rfl
  | cons p rest ih =>
    rw [List.dropWhile_cons]
    by_cases h : isIdle p = true
    · rw [if_pos h, ih, List.filterMap_cons_none ((component?_eq_none_iff p).mpr h)]
    · rw [if_neg h]

/-! ## Trimming -/

theorem filterMap_trimEnd (ps : List PathPiece) :
    (trimEnd ps).filterMap component? = ps.filterMap component? := by
  rw [trimEnd, List.filterMap_reverse, filterMap_dropWhile_idle, ← List.filterMap_reverse,
    List.reverse_reverse]

theorem filterMap_trim (ps : List PathPiece) :
    (trim ps).filterMap component? = ps.filterMap component? := by
  rw [trim, filterMap_trimEnd, filterMap_dropWhile_idle]

theorem mem_of_mem_trimEnd (ps : List PathPiece) (x : PathPiece) (h : x ∈ trimEnd ps) : x ∈ ps :=
  (List.rdropWhile_prefix isIdle ps).subset h

theorem mem_of_mem_trim (ps : List PathPiece) (x : PathPiece) (h : x ∈ trim ps) : x ∈ ps :=
  (List.dropWhile_suffix isIdle).subset (mem_of_mem_trimEnd _ x h)

/-- Idle pieces at the end are dropped. -/
theorem trimEnd_append_idle (ps idle : List PathPiece) (h : ∀ x ∈ idle, isIdle x = true) :
    trimEnd (ps ++ idle) = trimEnd ps :=
  rdropWhile_append_of_pos isIdle ps idle h

/-- A piece with a component stays. -/
theorem trimEnd_cons (p : PathPiece) (rest : List PathPiece) (h : isIdle p = false) :
    trimEnd (p :: rest) = p :: trimEnd rest := by
  rw [trimEnd, trimEnd, List.reverse_cons, List.dropWhile_append]
  split
  · next hempty =>
    rw [List.isEmpty_iff.mp hempty, List.dropWhile_cons, if_neg (by rw [h]; decide)]
    rfl
  · rw [List.reverse_append]
    rfl

theorem trimEnd_trimEnd (ps : List PathPiece) : trimEnd (trimEnd ps) = trimEnd ps :=
  List.rdropWhile_idempotent isIdle ps

/-- Idle pieces at the front are dropped. -/
theorem trim_idle_append (idle ps : List PathPiece) (h : ∀ x ∈ idle, isIdle x = true) :
    trim (idle ++ ps) = trim ps :=
  trimmed_append_left isIdle ps idle h

/-- Trimmed pieces are none, or start with one that has a component. -/
theorem trim_eq_nil_or_cons (ps : List PathPiece) :
    (trim ps = [] ∧ ∀ x ∈ ps, isIdle x = true) ∨
      ∃ p rest, isIdle p = false ∧ trim ps = p :: trimEnd rest := by
  rw [trim]
  cases hdrop : ps.dropWhile isIdle with
  | nil => exact Or.inl ⟨rfl, List.dropWhile_eq_nil_iff.mp hdrop⟩
  | cons p rest =>
    have hp := List.head_dropWhile_not isIdle (l := ps) (by rw [hdrop]; exact List.cons_ne_nil _ _)
    simp only [hdrop, List.head_cons] at hp
    exact Or.inr ⟨p, rest, by simpa using hp, trimEnd_cons p rest (by simpa using hp)⟩

theorem trim_cons (p : PathPiece) (rest : List PathPiece) (h : isIdle p = false) :
    trim (p :: rest) = p :: trimEnd rest := by
  rw [trim, List.dropWhile_cons, if_neg (by rw [h]; decide), trimEnd_cons p rest h]

theorem trim_trim (ps : List PathPiece) : trim (trim ps) = trim ps := by
  rcases trim_eq_nil_or_cons ps with ⟨hnil, _⟩ | ⟨p, rest, hp, htrim⟩
  · rw [hnil]; rfl
  · rw [htrim, trim_cons p _ hp, trimEnd_trimEnd]

theorem trim_append_idle (ps idle : List PathPiece) (h : ∀ x ∈ idle, isIdle x = true) :
    trim (ps ++ idle) = trim ps :=
  trimmed_append isIdle ps idle h

/-! ## Cutting and putting together -/

theorem pieces_of_octets_nil (p : Path) (h : p.octets = []) : p.pieces = [[]] := by
  rw [pieces, h, List.splitOn_nil]

theorem octets_eq_nil_of_pieces (p : Path) (h : p.pieces = [[]]) : p.octets = [] := by
  have hback := ofPieces_pieces p
  rw [h] at hback
  rw [← hback]
  rfl

/-- Pieces hold no slash. -/
theorem slash_not_mem_of_mem_pieces (p : Path) (x : PathPiece) (h : x ∈ p.pieces) :
    slash ∉ x := by
  rcases p with ⟨octets⟩
  change x ∈ octets.splitOn slash at h
  induction octets generalizing x with
  | nil =>
    rw [List.splitOn_nil, List.mem_singleton] at h
    exact h ▸ List.not_mem_nil
  | cons b rest ih =>
    -- A slash starts a new piece, and any other octet belongs to the first one.
    rw [List.splitOn_cons_eq_if_modifyHead] at h
    by_cases hb : b = slash
    · rw [if_pos (beq_iff_eq.mpr hb)] at h
      rcases List.mem_cons.mp h with rfl | h
      · exact List.not_mem_nil
      · exact ih x h
    · rw [if_neg (by rwa [beq_iff_eq])] at h
      cases hsplit : rest.splitOn slash with
      | nil => exact absurd hsplit (List.splitOn_ne_nil slash rest)
      | cons first more =>
        rw [hsplit, List.modifyHead_cons] at h
        rcases List.mem_cons.mp h with rfl | h
        · rintro hmem
          rcases List.mem_cons.mp hmem with heq | hmem
          · exact hb heq.symm
          · exact ih first (by rw [hsplit]; exact List.mem_cons_self) hmem
        · exact ih x (by rw [hsplit]; exact List.mem_cons_of_mem _ h)

/-- Pieces without slashes come back when the path they make is cut. -/
theorem pieces_ofPieces (ps : List PathPiece) (hne : ps ≠ []) (h : ∀ x ∈ ps, slash ∉ x) :
    (ofPieces ps).pieces = ps :=
  List.splitOn_intercalate slash h hne

/-- Two paths with a slash between them have the pieces of both. -/
theorem pieces_append_slash (front back : List UInt8) :
    (Path.mk (front ++ slash :: back)).pieces = (Path.mk front).pieces ++ (Path.mk back).pieces :=
  List.splitOn_append_cons_self front back

/-- The path with one more slash at its end. -/
def addSlash (p : Path) : Path := ⟨p.octets ++ [slash]⟩

theorem pieces_addSlash (p : Path) : p.addSlash.pieces = p.pieces ++ [[]] :=
  pieces_append_slash p.octets []

/-! ## Texts -/

/-- The octets of the path are a text. -/
def IsText (p : Path) : Prop := ∃ cs, p.octets = Utf8.encode cs

theorem isText_ofString (s : String) : (ofString s).IsText := ⟨s.toList, rfl⟩

/-- A text is not changed when it is read and written. -/
theorem ofString_toStringLossy (p : Path) (h : p.IsText) : ofString p.toStringLossy = p := by
  rcases h with ⟨cs, hcs⟩
  rcases p with ⟨octets⟩
  change octets = Utf8.encode cs at hcs
  rw [hcs, toStringLossy, ofString, Utf8.toStringLossy, Utf8.decodeLossy_encode, Utf8.ofString,
    String.toList_ofList]

/-- The octets of a character other than the slash hold no slash. -/
theorem slash_not_mem_encodeChar (c : Char) (h : c ≠ '/') : slash ∉ Utf8.encodeChar c := by
  intro hmem
  rcases Utf8.toNat_of_mem_encodeChar c slash hmem with heq | hgreat
  · apply h
    rw [← Char.ofNat_toNat c, ← heq]
    rfl
  · exact absurd hgreat (by decide)

/-- The pieces of a text are texts. -/
theorem isText_of_mem_pieces (p : Path) (h : p.IsText) (x : PathPiece) (hx : x ∈ p.pieces) :
    ∃ cs, x = Utf8.encode cs := by
  rcases h with ⟨cs, hcs⟩
  rw [pieces, hcs] at hx
  clear hcs p
  induction cs generalizing x with
  | nil =>
    rw [Utf8.encode_nil, List.splitOn_nil, List.mem_singleton] at hx
    exact ⟨[], hx⟩
  | cons c cs ih =>
    rw [Utf8.encode_cons] at hx
    by_cases hc : c = '/'
    · -- The slash is one octet, and cuts off an empty piece.
      have hslash : Utf8.encodeChar c ++ Utf8.encode cs = [] ++ slash :: Utf8.encode cs := by
        rw [hc]; rfl
      rw [hslash, List.splitOn_append_cons_self, List.splitOn_nil, List.singleton_append] at hx
      rcases List.mem_cons.mp hx with rfl | hx
      · exact ⟨[], rfl⟩
      · exact ih x hx
    · rw [splitOn_append_of_not_mem _ _ _ (slash_not_mem_encodeChar c hc)] at hx
      cases hsplit : (Utf8.encode cs).splitOn slash with
      | nil => exact absurd hsplit (List.splitOn_ne_nil slash _)
      | cons first more =>
        rw [hsplit, List.modifyHead_cons] at hx
        rcases List.mem_cons.mp hx with rfl | hx
        · rcases ih first (by rw [hsplit]; exact List.mem_cons_self) with ⟨ds, rfl⟩
          exact ⟨c :: ds, rfl⟩
        · exact ih x (by rw [hsplit]; exact List.mem_cons_of_mem _ hx)

/-- What is put together of texts is a text. -/
theorem isText_ofPieces (ps : List PathPiece) (h : ∀ x ∈ ps, ∃ cs, x = Utf8.encode cs) :
    (ofPieces ps).IsText := by
  induction ps with
  | nil => exact ⟨[], rfl⟩
  | cons p rest ih =>
    rcases h p List.mem_cons_self with ⟨cs, hcs⟩
    rcases ih fun x hx => h x (List.mem_cons_of_mem _ hx) with ⟨ds, hds⟩
    cases rest with
    | nil => exact ⟨cs, by rw [ofPieces, List.intercalate_singleton, hcs]⟩
    | cons q more =>
      refine ⟨cs ++ '/' :: ds, ?_⟩
      change [slash].intercalate (q :: more) = Utf8.encode ds at hds
      rw [ofPieces, List.intercalate_cons_cons, hds, hcs, Utf8.encode_append, Utf8.encode_cons,
        List.append_assoc]
      rfl

end Path

end SourceMarkers
