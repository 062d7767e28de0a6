import SourceMarkers.Marker.Basic

/-!
# Agreement up to the spelling of paths

Two markers agree when they differ at most in how their paths are spelled, and
two sets when their markers agree one by one. This is the equality that counts
for the program: `/proj/a.R` and `/proj//a.R` are the same file.

## Main definitions

* `Pointwise`: A relation between the items of two lists, in order.
* `SameOptional`: The same path, or none on both sides.
* `Marker.Agrees`, `MarkerSet.Agrees`: The agreement.

## Theorems

* `Pointwise.map_self_iff`: A list and what a function makes of its items.
* `Pointwise.map_eq`: Related items with equal images.
-/

namespace SourceMarkers

/-- Two lists of the same length whose items are related in order. -/
def Pointwise {α β : Type} (r : α → β → Prop) : List α → List β → Prop
  | [], [] => True
  | a :: as, b :: bs => r a b ∧ Pointwise r as bs
  | _, _ => False

instance Pointwise.decide {α β : Type} (r : α → β → Prop) [∀ a b, Decidable (r a b)] :
    (as : List α) → (bs : List β) → Decidable (Pointwise r as bs)
  | [], [] => isTrue trivial
  | a :: as, b :: bs =>
    have := Pointwise.decide r as bs
    inferInstanceAs (Decidable (r a b ∧ Pointwise r as bs))
  | [], _ :: _ => isFalse id
  | _ :: _, [] => isFalse id

namespace Pointwise

theorem refl {α : Type} {r : α → α → Prop} (h : ∀ a, r a a) (as : List α) : Pointwise r as as := by
  induction as with
  | nil => exact trivial
  | cons a rest ih => exact ⟨h a, ih⟩

/-- What a function makes of a list is related to the list when each item is. -/
theorem map_self_iff {α β : Type} {r : β → α → Prop} {f : α → β} (as : List α) :
    Pointwise r (as.map f) as ↔ ∀ a ∈ as, r (f a) a := by
  induction as with
  | nil => exact ⟨fun _ a h => absurd h List.not_mem_nil, fun _ => trivial⟩
  | cons a rest ih =>
    rw [List.forall_mem_cons, ← ih]
    exact Iff.rfl

theorem map_self {α β : Type} {r : β → α → Prop} {f : α → β} (as : List α)
    (h : ∀ a ∈ as, r (f a) a) : Pointwise r (as.map f) as := (map_self_iff as).mpr h

theorem map_eq {α β γ : Type} {r : α → β → Prop} {f : α → γ} {g : β → γ}
    (hr : ∀ a b, r a b → f a = g b) :
    ∀ {as : List α} {bs : List β}, Pointwise r as bs → as.map f = bs.map g
  | [], [], _ => rfl
  | a :: _, b :: _, h => by rw [List.map_cons, List.map_cons, hr a b h.1, map_eq hr h.2]

end Pointwise

/-- The same path, or none on both sides. -/
def SameOptional : Option Path → Option Path → Prop
  | none, none => True
  | some p, some q => p.Same q
  | _, _ => False

instance : (p q : Option Path) → Decidable (SameOptional p q)
  | none, none => isTrue trivial
  | some p, some q => inferInstanceAs (Decidable (p.Same q))
  | none, some _ => isFalse id
  | some _, none => isFalse id

/-- Equality up to the spelling of the path. -/
def Marker.Agrees (a b : Marker) : Prop :=
  a.kind = b.kind ∧ a.path.Same b.path ∧ a.line = b.line ∧ a.column = b.column ∧
    a.message = b.message ∧ a.showInErrorList = b.showInErrorList

instance (a b : Marker) : Decidable (a.Agrees b) := by
  unfold Marker.Agrees; infer_instance

/-- Equality up to the spelling of the paths. -/
def MarkerSet.Agrees (a b : MarkerSet) : Prop :=
  a.name = b.name ∧ SameOptional a.basePath b.basePath ∧
    Pointwise Marker.Agrees a.markers b.markers

instance (a b : MarkerSet) : Decidable (a.Agrees b) := by
  unfold MarkerSet.Agrees; infer_instance

end SourceMarkers
