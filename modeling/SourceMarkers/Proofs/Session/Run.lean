import SourceMarkers.Proofs.Session.Atomic
import SourceMarkers.Proofs.Session.Stream

/-!
# Runs of a session

A session that answers lines one after the other is a fold over the lines. What
holds of it before and after each line holds of it throughout, and what two
sessions answer alike to one line they answer alike to all.

Serving an input without a limit on the output is such a run over the requests
of the input. An input that is cut behind a line end has the requests of its
parts, so it can be served in parts as well.

## Main definitions

* `Session.after`, `Session.replies`: A run.
* `Session.Alike`: Sessions with catalogs that are written alike.

## Theorems

* `Session.after_induction`: What every line keeps, every run keeps.
* `Session.serve_eq`: Serving is a run.
* `Session.kept_after`: Names stay unique, and paths come back.
* `Session.Alike.chunks_eq`: Alike sessions put out the same.
-/

namespace SourceMarkers

open Json (Value)

namespace Session

/-! ## Runs -/

/-- The session after it answered some lines. -/
def after (s : Session) (lines : List (List UInt8)) : Session :=
  lines.foldl (fun s line => (s.answerOctets line).session) s

/-- The replies to some lines, in order. -/
def replies : Session → List (List UInt8) → List Reply
  | _, [] => []
  | s, line :: rest => s.answerOctets line :: (s.answerOctets line).session.replies rest

theorem after_cons (s : Session) (line : List UInt8) (rest : List (List UInt8)) :
    s.after (line :: rest) = (s.answerOctets line).session.after rest := rfl

theorem after_append (s : Session) (front back : List (List UInt8)) :
    s.after (front ++ back) = (s.after front).after back :=
  List.foldl_append

theorem replies_append (s : Session) (front back : List (List UInt8)) :
    s.replies (front ++ back) = s.replies front ++ (s.after front).replies back := by
  induction front generalizing s with
  | nil => rfl
  | cons line rest ih =>
    rw [List.cons_append, replies, replies, ih, List.cons_append, after_cons]

/-- What every line keeps, every run keeps. -/
theorem after_induction {p : Session → Prop} (s : Session) (lines : List (List UInt8))
    (hline : ∀ s line, p s → p (s.answerOctets line).session) (h : p s) :
    p (s.after lines) := by
  induction lines generalizing s with
  | nil => exact h
  | cons line rest ih =>
    rw [after_cons]
    exact ih _ (hline s line h)

/-- What a run puts out. -/
def chunks (s : Session) (lines : List (List UInt8)) : List UInt8 :=
  (s.replies lines).flatMap Reply.chunk

theorem chunks_append (s : Session) (front back : List (List UInt8)) :
    s.chunks (front ++ back) = s.chunks front ++ (s.after front).chunks back := by
  unfold chunks
  rw [replies_append, List.flatMap_append]

theorem chunks_cons (s : Session) (line : List UInt8) (rest : List (List UInt8)) :
    s.chunks (line :: rest) =
      (s.answerOctets line).chunk ++ (s.answerOctets line).session.chunks rest := rfl

/-- The output takes what a run puts out, as far as there is room. -/
theorem serveLines_output (s : Session) (room : Option Nat) (lines : List (List UInt8)) :
    (s.serveLines room lines).output = (put room (s.chunks lines)).taken := by
  induction lines generalizing s room with
  | nil => cases room <;> rfl
  | cons line rest ih =>
    rw [chunks_cons, put_append, serveLines, Put.andThen]
    -- Nothing is answered after a chunk that was refused.
    cases (put room (s.answerOctets line).chunk).room? with
    | none => rfl
    | some left =>
      simp only [← ih]
      rfl

/-- As long as there is room, answering requests is a run, and the others are
    answered in the room that is left. -/
theorem serveLines_append (s : Session) (room left : Option Nat) (front back : List (List UInt8))
    (h : (put room (s.chunks front)).room? = some left) :
    s.serveLines room (front ++ back) =
      ((s.after front).serveLines left back).after (s.chunks front)
        ((s.replies front).flatMap Reply.log) := by
  induction front generalizing s room with
  | nil =>
    have hleft : room = left := by
      cases room with
      | none => exact Option.some.inj h
      | some room => exact Option.some.inj h
    rw [hleft]
    rfl
  | cons line rest ih =>
    rw [chunks_cons, put_append] at h
    -- The first chunk was taken, or there would be no room left behind it.
    cases hroom : (put room (s.answerOctets line).chunk).room? with
    | none =>
      rw [Put.andThen, hroom] at h
      exact absurd (hroom.symm.trans h) (by simp only [reduceCtorEq, not_false_eq_true])
    | some room' =>
      have hput := put_of_room room room' _ hroom
      rw [hput, andThen_some] at h
      rw [List.cons_append, serveLines, hput]
      simp only []
      rw [ih _ room' h, Service.after_after]
      rfl

/-- Requests whose chunks all fit are a run, and everything is delivered. -/
theorem serveLines_of_room (s : Session) (room left : Option Nat) (lines : List (List UInt8))
    (h : (put room (s.chunks lines)).room? = some left) :
    (s.serveLines room lines).session = s.after lines ∧
      (s.serveLines room lines).output = s.chunks lines ∧
      (s.serveLines room lines).delivered = true := by
  have happend := serveLines_append s room left lines [] h
  rw [List.append_nil] at happend
  rw [happend]
  refine ⟨rfl, ?_, rfl⟩
  exact List.append_nil _

/-- Serving an input to a client that takes everything is a run over its
    requests, and ends well when the input does. -/
theorem serve_eq (s : Session) (input : List UInt8) (ending : InputEnd) :
    (s.serve none input ending).session = s.after (requestLines input ending) ∧
      (s.serve none input ending).output = s.chunks (requestLines input ending) ∧
      (s.serve none input ending).endedWell ending = (ending == .ended) := by
  rcases serveLines_of_room s none none (requestLines input ending) rfl with
    ⟨hsession, houtput, hdelivered⟩
  rcases atInputEnd_fields (s.serveLines none (requestLines input ending)) ending with
    ⟨hsession', houtput', hdelivered'⟩
  rw [serve_eq_serveLines]
  refine ⟨hsession'.trans hsession, houtput'.trans houtput, ?_⟩
  -- Everything was delivered, so only the input can end badly.
  rw [Service.endedWell, hdelivered', hdelivered, Bool.not_true, Bool.false_or]

/-! ## What a run keeps -/

/-- The ways of writing paths and of meeting the client are never changed. -/
theorem fixed_after (s : Session) (lines : List (List UInt8)) :
    (s.after lines).shorthand = s.shorthand ∧ (s.after lines).attached = s.attached := by
  refine after_induction
    (p := fun r => r.shorthand = s.shorthand ∧ r.attached = s.attached) s lines ?_ ⟨rfl, rfl⟩
  intro r line h
  rcases answerOctets_cases r line with ⟨_, _, hsession, _⟩ | ⟨_, c, _, _, hsession, _⟩
  · rw [hsession]
    exact h
  · rw [hsession]
    exact h

/-- The names in the catalog are unique, and its paths come back. -/
def Kept (s : Session) : Prop := s.catalog.Kept s.shorthand

theorem kept_answerOctets (s : Session) (line : List UInt8) (h : s.Kept) :
    (s.answerOctets line).session.Kept := by
  rcases answerOctets_cases s line with ⟨_, _, hsession, _⟩ | ⟨_, c, _, hasks, hsession, _⟩
  · rw [hsession]
    exact h
  · rw [hsession]
    exact Command.kept_effect s.shorthand s.catalog c h hasks.clean

theorem kept_after (s : Session) (lines : List (List UInt8)) (h : s.Kept) : (s.after lines).Kept :=
  after_induction s lines kept_answerOctets h

/-! ## Alike sessions -/

/-- Sessions that nobody can tell apart. -/
structure Alike (a b : Session) : Prop where
  shorthand : a.shorthand = b.shorthand
  attached : a.attached = b.attached
  catalog : a.catalog.Alike b.shorthand b.catalog

namespace Alike

variable {a b : Session}

theorem view_eq (h : a.Alike b) : a.view = b.view := by
  unfold Session.view
  rw [h.shorthand, h.catalog.view_eq]

/-- A line is answered alike by alike sessions, and leaves them alike. -/
theorem answerOctets (h : a.Alike b) (line : List UInt8) :
    (a.answerOctets line).session.Alike (b.answerOctets line).session ∧
      (a.answerOctets line).chunk = (b.answerOctets line).chunk := by
  have hchunk : ∀ r q : Reply, r.response = q.response → r.events = q.events →
      r.chunk = q.chunk := by
    intro r q hresponse hevents
    unfold Reply.chunk Reply.chars
    rw [hresponse, hevents]
  -- Both sessions read the same from the line.
  have hasked : Asked.ofLine a.shorthand line = Asked.ofLine b.shorthand line := by rw [h.shorthand]
  cases hcommand : (Asked.ofLine b.shorthand line).command with
  | error f =>
    rcases answerOctets_of_error a line f (by rw [hasked, hcommand]) with ⟨hsa, hea, hra⟩
    rcases answerOctets_of_error b line f hcommand with ⟨hsb, heb, hrb⟩
    refine ⟨by rw [hsa, hsb]; exact h, hchunk _ _ ?_ ?_⟩
    · rw [hra, hrb, hasked]
    · rw [hea, heb]
  | ok c =>
    rcases answerOctets_of_ok a line c (by rw [hasked, hcommand]) with ⟨hsa, hea, hra⟩
    rcases answerOctets_of_ok b line c hcommand with ⟨hsb, heb, hrb⟩
    rcases perform_eq a c with ⟨hpa, hresa, heva⟩
    rcases perform_eq b c with ⟨hpb, hresb, hevb⟩
    -- The views after the command are equal, and nothing else is told.
    have hsession : (a.perform c).session.Alike (b.perform c).session := by
      rw [hpa, hpb]
      exact ⟨h.shorthand, h.attached, Command.alike_effect _ _ _ c h.catalog⟩
    refine ⟨by rw [hsa, hsb]; exact hsession, hchunk _ _ ?_ ?_⟩
    · rw [hra, hrb, hasked, hresa, hresb]
      unfold resultOf
      rw [hsession.view_eq]
    · rw [hea, heb, heva, hevb]
      unfold eventsOf
      rw [hsession.view_eq, hsession.attached]

theorem after (h : a.Alike b) (lines : List (List UInt8)) :
    (a.after lines).Alike (b.after lines) := by
  induction lines generalizing a b with
  | nil => exact h
  | cons line rest ih => exact ih (h.answerOctets line).1

/-- Alike sessions put out the same. -/
theorem chunks_eq (h : a.Alike b) (lines : List (List UInt8)) :
    a.chunks lines = b.chunks lines := by
  unfold chunks
  induction lines generalizing a b with
  | nil => rfl
  | cons line rest ih =>
    rw [replies, replies, List.flatMap_cons, List.flatMap_cons, (h.answerOctets line).2,
      ih (h.answerOctets line).1]

end Alike

end Session

end SourceMarkers
