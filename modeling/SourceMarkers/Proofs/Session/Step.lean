import SourceMarkers.Proofs.Catalog.Alike
import SourceMarkers.Session.Basic

/-!
# One line of a session

Answering a line falls into two halves that meet in one value. The first half
reads the line: it ends in a command, or in the fault that is answered, and it
depends on the line and on how paths are written, never on the catalog. The
second half carries the command out. It always succeeds, so whatever can fail
fails before anything is changed.

What a command does is one function on catalogs, and what it announces is
known from the command alone. A session is changed in nothing else.

## Main definitions

* `Request.ofLine?`: The request of a line.
* `Asked`, `Asked.ofLine`: What a line asks for.
* `Command.effect`, `Command.announced`: What a command does to a catalog, and
  what it announces.

## Theorems

* `Session.perform_eq`: Carrying out a command.
* `Session.view_of_mem_events`: What an event shows.
* `Session.answerOctets_by_request`: Whether a line holds a request.
* `Session.answerOctets_of_error`, `Session.answerOctets_of_ok`: Answering a
  line.
* `Command.kept_effect`, `Command.alike_effect`: What a command keeps.
-/

namespace SourceMarkers

open Json (Value)

/-! ## Commands -/

namespace Command

/-- What a command makes of a catalog. -/
def effect (c : Catalog) : Command → Catalog
  | .closeTab => c.clear
  | .activate name => (c.activate name).value
  | .clearActive => c.clearActive
  | .present set _ => c.put set
  | .getView => c

/-- The choice that goes with the announcement of a command, if it makes one. -/
def announced : Command → Option AutoSelect
  | .closeTab => some .none
  | .activate _ => some .none
  | .clearActive => some .none
  | .present _ select => some select
  | .getView => none

/-- What is put into a catalog has paths that come back. -/
def Clean (s : Shorthand) : Command → Prop
  | .present set _ => set.Clean s
  | _ => True

theorem kept_effect (s : Shorthand) (c : Catalog) (command : Command) (h : c.Kept s)
    (hclean : command.Clean s) : (command.effect c).Kept s := by
  cases command with
  | closeTab => exact Catalog.kept_empty s
  | activate name => exact Catalog.kept_activate s c name h
  | clearActive => exact Catalog.kept_clearActive s c h
  | present set select => exact Catalog.kept_put s c set h hclean
  | getView => exact h

theorem alike_effect (s : Shorthand) (a b : Catalog) (command : Command) (h : a.Alike s b) :
    (command.effect a).Alike s (command.effect b) := by
  cases command with
  | closeTab => exact .refl s Catalog.empty
  | activate name => exact h.activate name
  | clearActive => exact h.clearActive
  | present set select => exact h.put rfl
  | getView => exact h

end Command

namespace Session

/-- The events of an announcement: one for the client, if there is a client. -/
def eventsOf (s : Session) : Option AutoSelect → List Event
  | none => []
  | some select => if s.attached then [⟨s.view, select⟩] else []

/-- The result of a command that makes an announcement is `null`; the only
    other one is the view. -/
def resultOf (s : Session) : Option AutoSelect → Value
  | none => s.view
  | some _ => .null

theorem announce_eq (s : Session) (select : AutoSelect) :
    (s.announce select).session = s ∧ (s.announce select).result = .ok .null ∧
      (s.announce select).events = s.eventsOf (some select) := by
  unfold announce eventsOf
  -- Without a client the event is dropped, and the result is the same.
  by_cases h : s.attached = true
  · simp only [h, if_true, and_self]
  · simp only [h, Bool.false_eq_true, if_false, and_self]

/-- A command changes the catalog, and nothing else; it succeeds, and what it
    announces or gives is the view after the change. -/
theorem perform_eq (s : Session) (c : Command) :
    (s.perform c).session = s.withCatalog (c.effect s.catalog) ∧
      (s.perform c).result = .ok ((s.perform c).session.resultOf c.announced) ∧
      (s.perform c).events = (s.perform c).session.eventsOf c.announced := by
  cases c with
  | closeTab =>
    rcases announce_eq (s.withCatalog s.catalog.clear) .none with ⟨hsession, hresult, hevents⟩
    exact ⟨hsession, hresult, by rw [perform, hevents, hsession]; rfl⟩
  | activate name =>
    rcases announce_eq (s.withCatalog (s.catalog.activate name).value) .none with
      ⟨hsession, hresult, hevents⟩
    refine ⟨hsession, hresult, ?_⟩
    show (announce _ _).events = eventsOf (announce _ _).session _
    rw [hevents, hsession]
    rfl
  | clearActive =>
    rcases announce_eq (s.withCatalog s.catalog.clearActive) .none with ⟨hsession, hresult, hevents⟩
    exact ⟨hsession, hresult, by rw [perform, hevents, hsession]; rfl⟩
  | present set select =>
    rcases announce_eq (s.withCatalog (s.catalog.put set)) select with ⟨hsession, hresult, hevents⟩
    refine ⟨hsession, hresult, ?_⟩
    show (announce _ _).events = eventsOf (announce _ _).session _
    rw [hevents, hsession]
    rfl
  | getView => exact ⟨rfl, rfl, rfl⟩

/-- How paths are written is not changed by a command. -/
theorem shorthand_perform (s : Session) (c : Command) :
    (s.perform c).session.shorthand = s.shorthand := by
  rw [(s.perform_eq c).1]
  rfl

/-- An event holds the view of the session that the command left. -/
theorem view_of_mem_events (s : Session) (c : Command) (e : Event)
    (h : e ∈ (s.perform c).events) : e.view = (s.perform c).session.view := by
  rw [(s.perform_eq c).2.2] at h
  unfold eventsOf at h
  -- There is one event, or none.
  split at h
  · exact absurd h List.not_mem_nil
  · split at h
    · rw [List.mem_singleton.mp h]
    · exact absurd h List.not_mem_nil

end Session

/-! ## Reading a line -/

/-- The request of a line, if it holds one. -/
def Request.ofLine? (line : List UInt8) : Option Request :=
  match Utf8.decode line with
  | .error _ => none
  | .ok cs =>
    match Json.parseChars cs with
    | .error _ => none
    | .ok v => (Request.ofJson v).toOption

/-- What a line asks for: the identifier to answer with, and a command or the
    reason why there is none. -/
structure Asked where
  id : Value
  command : Except RequestFault Command

namespace Asked

/-- What a line asks for. -/
def ofLine (s : Shorthand) (line : List UInt8) : Asked :=
  match Utf8.decode line with
  | .error f => ⟨.null, .error (.notText f)⟩
  | .ok cs =>
    match Json.parseChars cs with
    | .error f => ⟨.null, .error (.notJson f)⟩
    | .ok v =>
      match Request.ofJson v with
      | .error m => ⟨(v.member? "id").getD .null, .error (.notARequest m)⟩
      | .ok r => ⟨r.id, (Command.ofRequest s r.method r.params).value⟩

end Asked

namespace Session

/-- A line holds a request, and then this is carried out; or it holds none, and then it
    is refused. Either way the answer goes with what the line asks for. -/
theorem answerOctets_by_request (s : Session) (line : List UInt8) :
    (∃ r, Request.ofLine? line = some r ∧
      Asked.ofLine s.shorthand line =
        ⟨r.id, (Command.ofRequest s.shorthand r.method r.params).value⟩ ∧
      s.answerOctets line = s.serveRequest r) ∨
    ∃ id f entry, Request.ofLine? line = none ∧
      Asked.ofLine s.shorthand line = ⟨id, .error f⟩ ∧
      s.answerOctets line = s.refuse id f entry := by
  unfold Request.ofLine? Asked.ofLine answerOctets answer
  -- A request is found when the text, its form and its members are right.
  cases Utf8.decode line with
  | error f => exact Or.inr ⟨_, _, _, rfl, rfl, rfl⟩
  | ok cs =>
    simp only []
    cases Json.parseChars cs with
    | error f => exact Or.inr ⟨_, _, _, rfl, rfl, rfl⟩
    | ok v =>
      simp only []
      cases Request.ofJson v with
      | error m => exact Or.inr ⟨_, _, _, rfl, rfl, rfl⟩
      | ok r => exact Or.inl ⟨r, rfl, rfl, rfl⟩

/-- A command comes from a request. -/
theorem request_of_ok (s : Session) (line : List UInt8) (c : Command)
    (h : (Asked.ofLine s.shorthand line).command = .ok c) :
    ∃ r, Request.ofLine? line = some r ∧ (Asked.ofLine s.shorthand line).id = r.id ∧
      (Command.ofRequest s.shorthand r.method r.params).value = .ok c := by
  rcases s.answerOctets_by_request line with ⟨r, hline, hasked, _⟩ | ⟨id, f, _, _, hasked, _⟩
  · rw [hasked] at h ⊢
    exact ⟨r, hline, rfl, h⟩
  · rw [hasked] at h
    exact absurd h (by simp only [reduceCtorEq, not_false_eq_true])

/-- A request asks for its command. -/
theorem command_of_ofLine? (s : Session) (line : List UInt8) (r : Request)
    (h : Request.ofLine? line = some r) :
    (Asked.ofLine s.shorthand line).command =
      (Command.ofRequest s.shorthand r.method r.params).value := by
  rcases s.answerOctets_by_request line with ⟨other, hline, hasked, _⟩ | ⟨_, _, _, hnone, _, _⟩
  · rw [hasked, Option.some.inj (hline.symm.trans h)]
  · exact absurd (hnone.symm.trans h) (by simp only [reduceCtorEq, not_false_eq_true])

/-- A line that asks for nothing that can be done is refused, and that is all. -/
theorem answerOctets_of_error (s : Session) (line : List UInt8) (f : RequestFault)
    (h : (Asked.ofLine s.shorthand line).command = .error f) :
    (s.answerOctets line).session = s ∧ (s.answerOctets line).events = [] ∧
      (s.answerOctets line).response = ⟨(Asked.ofLine s.shorthand line).id, .error f⟩ := by
  rcases s.answerOctets_by_request line with
    ⟨r, _, hasked, hanswer⟩ | ⟨id, g, entry, _, hasked, hanswer⟩
  · -- The request is good, but no command comes of it.
    rw [hasked] at h ⊢
    have hcommand : (Command.ofRequest s.shorthand r.method r.params).value = .error f := h
    rw [hanswer]
    simp only [serveRequest, call, hcommand, and_self]
  · rw [hasked] at h ⊢
    rw [hanswer, ← Except.error.inj h]
    exact ⟨rfl, rfl, rfl⟩

/-- A line that asks for a command is answered with what comes of it. -/
theorem answerOctets_of_ok (s : Session) (line : List UInt8) (c : Command)
    (h : (Asked.ofLine s.shorthand line).command = .ok c) :
    (s.answerOctets line).session = (s.perform c).session ∧
      (s.answerOctets line).events = (s.perform c).events ∧
      (s.answerOctets line).response =
        ⟨(Asked.ofLine s.shorthand line).id, (s.perform c).result⟩ := by
  rcases s.answerOctets_by_request line with ⟨r, _, hasked, hanswer⟩ | ⟨_, _, _, _, hasked, _⟩
  · rw [hasked] at h ⊢
    have hcommand : (Command.ofRequest s.shorthand r.method r.params).value = .ok c := h
    rw [hanswer]
    simp only [serveRequest, call, hcommand, Outcome.after, and_self]
  · rw [hasked] at h
    exact absurd h (by simp only [reduceCtorEq, not_false_eq_true])

end Session

end SourceMarkers
